import HubContract.Binding.Registration
import HubContract.Source.Text

namespace HubContract.Source

open HubContract.Number HubContract.Text

-- The line that imports a binding from its module.
def importLine (e : RegistrationEntry) : String :=
  "from ." ++ e.bindingModule ++ " import " ++ e.bindingName

def tierLine (t : BackoffTier) : String :=
  "    BackoffTier(attempts=" ++ natural t.attempts ++ ", delay_seconds=" ++
    Layout.source.render t.delay ++ "),"

def policyLines (p : ReconnectPolicy) : List String :=
  ["DEFAULT_RECONNECT_POLICY = ReconnectPolicy(tiers=("] ++ p.tiers.map tierLine ++ ["))"]

-- The builder method of one binding.
def entryLines (builder : String) (e : RegistrationEntry) : List String := [
  "def " ++ e.methodName ++ "(",
  "    self,",
  "    *,",
  "    reconnect_policy: Optional[ReconnectPolicy] = None,",
  "    lifetime: Optional[ServiceLifetime] = None,",
  "    headers: Optional[dict[str, str]] = None,",
  ") -> " ++ builder ++ ":",
  "    \"\"\"Register " ++ e.bindingName ++ " at <base_url>" ++ docText e.hubUri ++ ".\"\"\"",
  "    add_hub_client(",
  "        self.services,",
  "        " ++ e.bindingName ++ ",",
  "        self.connection_factory,",
  "        self.base_url,",
  "        reconnect_policy=reconnect_policy,",
  "        lifetime=lifetime,",
  "        headers=headers,",
  "        default_policy=DEFAULT_RECONNECT_POLICY,",
  "        default_lifetime=DEFAULT_LIFETIME,",
  "    )",
  "    return self",
  ""]

def registrationLines (h : RegistrationHelper) : List String :=
  header "Hub client registrations" ++ [
    "from typing import Optional",
    "",
    "from hubgen.ir.bindings import BackoffTier, ReconnectPolicy",
    "from hubgen.ir.enums import ServiceLifetime",
    "from hubgen.runtime import ConnectionFactory, ServiceCollection, add_hub_client",
    ""] ++
  h.entries.map importLine ++ (if h.entries.isEmpty then [] else [""]) ++
  policyLines h.reconnectPolicy ++ [
    "DEFAULT_LIFETIME = ServiceLifetime." ++ h.defaultLifetime.member,
    "",
    "",
    "class " ++ h.builderName ++ ":",
    "    \"\"\"Registers generated hub clients with a service collection.\"\"\"",
    "",
    "    def __init__(",
    "        self,",
    "        services: ServiceCollection,",
    "        connection_factory: ConnectionFactory,",
    "        base_url: str,",
    "    ):",
    "        self.services = services",
    "        self.connection_factory = connection_factory",
    "        self.base_url = base_url",
    ""] ++
  h.entries.flatMap (fun e => indented 1 (entryLines h.builderName e)) ++ [
    "",
    "def " ++ h.functionName ++ "(",
    "    services: ServiceCollection,",
    "    connection_factory: ConnectionFactory,",
    "    base_url: str,",
    ") -> " ++ h.builderName ++ ":",
    "    \"\"\"Entry point: chain with_<client>() calls on the returned builder.\"\"\"",
    "    return " ++ h.builderName ++ "(services, connection_factory, base_url)"]

-- The source of the registration module.
def registration (h : RegistrationHelper) : String := joined (registrationLines h)

-- The names that a generated package exports.
def exportedNames (h : RegistrationHelper) : List String :=
  h.entries.map (·.bindingName) ++ [h.builderName, h.functionName]

def packageLines (h : RegistrationHelper) : List String :=
  header "Generated hub clients" ++ h.entries.map importLine ++
  ["from .registration import " ++ h.builderName ++ ", " ++ h.functionName, "", "__all__ = ["] ++
  (exportedNames h).map (fun n => "    " ++ quoted n ++ ",") ++ ["]"]

-- The source of the package itself.
def package (h : RegistrationHelper) : String := joined (packageLines h)

end HubContract.Source
