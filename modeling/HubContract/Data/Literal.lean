import HubContract.Data.Basic
import HubContract.Text.Quoted

namespace HubContract.Data

open HubContract.Number HubContract.Text

-- A byte string literal; bytes outside the visible ASCII range are escaped.
def bytesLiteral (bs : List UInt8) : String :=
  let cs := bs.map fun b => Char.ofNat b.toNat
  let q := Quoted.quoteFor cs
  let piece (c : Char) : List Char :=
    if c.toNat < 128 then Quoted.escape q c else Quoted.numericEscape c.toNat
  "b" ++ String.ofList (q :: cs.flatMap piece ++ [q])

def secondsLiteral (n : Int) : String :=
  if n = 0 then "0"
  else
    let days := n.fdiv 86400
    let seconds := n.fmod 86400
    ", ".intercalate
      ((if days = 0 then [] else ["days=" ++ integer days]) ++
        (if seconds = 0 then [] else ["seconds=" ++ integer seconds]))

def offsetLiteral (n : Int) : String :=
  if n = 0 then "datetime.timezone.utc"
  else "datetime.timezone(datetime.timedelta(" ++ secondsLiteral n ++ "))"

def dateLiteral (d : Date) : String :=
  "datetime.date(" ++ ", ".intercalate [natural d.year, natural d.month, natural d.day] ++ ")"

-- Seconds and microseconds are left out where they and all after them are zero.
def timestampLiteral (t : Timestamp) : String :=
  let fields := [t.date.year, t.date.month, t.date.day, t.hour, t.minute] ++
    (if t.microsecond ≠ 0 then [t.second, t.microsecond]
     else if t.second ≠ 0 then [t.second] else [])
  "datetime.datetime(" ++ ", ".intercalate (fields.map natural ++
    t.offset.toList.map fun o => "tzinfo=" ++ offsetLiteral o) ++ ")"

-- What stands for a collection inside of itself.
def ellipsis : Collection → String
  | .list => "[...]"
  | .tuple => "(...)"
  | .mapping => "\x7b...\x7d"

-- The kind of a collection under a name.
def collection : Data → Collection
  | .tuple _ => .tuple
  | .mapping _ => .mapping
  | _ => .list

mutual

-- The literal of a value inside of the collections of the given names.
def literalWithin (names : List Nat) : Data → String
  | .null => "None"
  | .bool b => if b then "True" else "False"
  | .int n => integer n
  | .float x => Layout.source.render x
  | .str s => quoted s
  | .loose codes => Quoted.ofCodes codes
  | .bytes b => bytesLiteral b
  | .date d => dateLiteral d
  | .timestamp t => timestampLiteral t
  | .list xs => "[" ++ ", ".intercalate (literals names xs) ++ "]"
  | .tuple [x] => "(" ++ literalWithin names x ++ ",)"
  | .tuple xs => "(" ++ ", ".intercalate (literals names xs) ++ ")"
  | .set [] => "set()"
  | .set xs => "\x7b" ++ ", ".intercalate (literals names xs) ++ "\x7d"
  | .mapping es => "\x7b" ++ ", ".intercalate (entryLiterals names es) ++ "\x7d"
  | .knot name body =>
    if names.contains name then ellipsis body.collection else literalWithin (name :: names) body
  | .again _ kind => ellipsis kind

def literals (names : List Nat) : List Data → List String
  | [] => []
  | x :: xs => literalWithin names x :: literals names xs

def entryLiterals (names : List Nat) : List (Data × Data) → List String
  | [] => []
  | (k, v) :: es =>
    (literalWithin names k ++ ": " ++ literalWithin names v) :: entryLiterals names es

end

def literal (d : Data) : String := d.literalWithin []

-- Whether a number is short enough to be written.
def isShortInt (n : Int) : Bool := n.natAbs < Nat.pow 10 maxDigits

mutual

-- Whether no number in a value is too long to be written.
def isShowable : Data → Bool
  | .int n => isShortInt n
  | .list xs | .tuple xs | .set xs => areShowable xs
  | .mapping es => entriesShowable es
  | .knot _ body => isShowable body
  | _ => true

def areShowable : List Data → Bool
  | [] => true
  | x :: xs => isShowable x && areShowable xs

def entriesShowable : List (Data × Data) → Bool
  | [] => true
  | (k, v) :: es => isShowable k && isShowable v && entriesShowable es

end

def dateText (d : Date) : String :=
  "-".intercalate [padded 4 d.year, padded 2 d.month, padded 2 d.day]

def offsetText (n : Int) : String :=
  let m := n.natAbs
  let clock := padded 2 (m / 3600) ++ ":" ++ padded 2 (m / 60 % 60)
  (if n < 0 then "-" else "+") ++ clock ++
    (if m % 60 = 0 then "" else ":" ++ padded 2 (m % 60))

def timestampText (t : Timestamp) : String :=
  dateText t.date ++ " " ++ ":".intercalate [padded 2 t.hour, padded 2 t.minute, padded 2 t.second] ++
    (if t.microsecond = 0 then "" else "." ++ padded 6 t.microsecond) ++
    (t.offset.map offsetText).getD ""

-- A value as text: strings and dates as they read, everything else as its literal.
def text : Data → String
  | .str s => s
  | .loose codes => (Written.loose codes).text
  | .date d => dateText d
  | .timestamp t => timestampText t
  | d => literal d

end HubContract.Data
