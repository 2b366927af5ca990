import CallNotation.Decimal.Layout
import CallNotation.Text.Quoted

/-!
# Foreign values

What stands in a tree where a node should: plain data, or an object of some other kind. The walk
and the renderer refuse them and name their kind.

Plain data compare by value. A truth value is the number 0 or 1, and an integer and a floating-point
number are equal when they are exactly the same number. Records are equal when they have the same
keys with equal values. An object equals nothing.
-/

namespace CallNotation

/-- A value that is no tree node. -/
inductive Foreign where
  /-- No value. -/
  | missing
  /-- A truth value. -/
  | boolean (b : Bool)
  /-- An integer. -/
  | integer (n : Int)
  /-- A floating-point number. -/
  | float (x : Float)
  /-- A text. -/
  | text (t : Text)
  /-- A list of values. -/
  | list (items : List Foreign)
  /-- Values by key; no key is there twice. -/
  | record (entries : List (Text × Foreign))
  /-- An object, of which only the kind is known. -/
  | object (kind : String)

instance : Inhabited Foreign := ⟨.missing⟩

namespace Foreign

/-- The kind of the value, as messages name it. -/
def kind : Foreign → String
  | missing => "NoneType"
  | boolean _ => "bool"
  | integer _ => "int"
  | float _ => "float"
  | text _ => "str"
  | list _ => "list"
  | record _ => "dict"
  | object kind => kind

/-! ## Values in one line, and their equality -/

mutual

/-- The value in one line. -/
def describe : Foreign → Text
  | missing => "None".toList
  | boolean true => "True".toList
  | boolean false => "False".toList
  | integer n => Text.ofInt n
  | float x => describeFloat x
  | text t => Text.quoted t
  | list items => '[' :: List.intercalate [',', ' '] (describeAll items) ++ [']']
  | record entries => '\x7b' :: List.intercalate [',', ' '] (describeEntries entries) ++ ['\x7d']
  | object kind => '<' :: kind.toList ++ ['>']

/-- Each value in one line. -/
def describeAll : List Foreign → List Text
  | [] => []
  | v :: vs => describe v :: describeAll vs

/-- Each key with its value in one line. -/
def describeEntries : List (Text × Foreign) → List Text
  | [] => []
  | (key, v) :: entries => (Text.quoted key ++ ':' :: ' ' :: describe v) :: describeEntries entries

end

/-- The finite number that the value is. -/
def number? : Foreign → Option Rat
  | boolean b => some b.toNat
  | integer n => some n
  | float x =>
    let m := Magnitude.ofFloat x
    let magnitude := mkRat m.numerator m.denominator
    if isFiniteFloat x then some (if hasMinus x then -magnitude else magnitude) else none
  | _ => none

/-- Whether two values are the same number. -/
def sameNumber : Foreign → Foreign → Bool
  | float x, float y => x == y
  | v, w =>
    match v.number?, w.number? with
    | some a, some b => a == b
    | _, _ => false

mutual

/-- Whether two values are equal. -/
def same : Foreign → Foreign → Bool
  | missing, missing => true
  | text t, text u => t == u
  | list vs, list ws => sameAll vs ws
  | record es, record fs => es.length == fs.length && sameEntries es fs
  | v, w => sameNumber v w

/-- Whether two lists of values are equal. -/
def sameAll : List Foreign → List Foreign → Bool
  | [], [] => true
  | v :: vs, w :: ws => same v w && sameAll vs ws
  | _, _ => false

/-- Whether each key has an equal value among the entries `fs`. -/
def sameEntries : List (Text × Foreign) → List (Text × Foreign) → Bool
  | [], _ => true
  | (key, v) :: es, fs =>
    match fs.lookup key with
    | some w => same v w && sameEntries es fs
    | none => false

end

end Foreign

end CallNotation
