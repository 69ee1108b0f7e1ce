import ChartLowering.Binary64.Shortest
import ChartLowering.OrderedMap

/-
  The values that specifications are made of.

  Objects keep the order of their keys, and whole numbers are told apart from floating-point ones:
  both show in the output. Texts are made of Unicode characters; half a surrogate pair is none, and
  a text with one is no value here. A table is a set of rows that its caller hands over as a table
  and not as an array; it is accepted in fewer places than an array is.

  `Json.same` is the equality that merging uses: numbers compare by value, the truth values as 1 and
  0, objects without order. What is no number is not even equal to itself, but a list or an object
  that holds it is: what these hold is compared by `Json.sameMember`, for which one object is as good
  as two equal ones.
-/

namespace ChartLowering

/-- A whole number of any size, or a floating-point number. -/
inductive Number where
  | int (n : Int)
  | float (x : Binary64)
deriving Repr, DecidableEq, Inhabited

namespace Number

/-- Equality by value, exact across the two kinds. -/
def same : Number → Number → Bool
  | .int m, .int n => m == n
  | .int n, .float x => x.equalsInt n
  | .float x, .int n => x.equalsInt n
  | .float x, .float y => x.same y

/-- The floating-point number nearest to a number; none for a whole number out of range. -/
def toBinary64? : Number → Option Binary64
  | .int n => Binary64.ofInt? n
  | .float x => some x

def isZero : Number → Bool
  | .int n => n == 0
  | .float x => x.isZero

/-- Infinities and the number that is none are not finite. -/
def isFinite : Number → Bool
  | .int _ => true
  | .float (.finite ..) => true
  | .float _ => false

def text : Number → String
  | .int n => toString n
  | .float x => x.text

end Number

/-- A value of a specification. -/
inductive Json where
  | null
  | bool (b : Bool)
  | num (n : Number)
  | str (s : String)
  | arr (items : List Json)
  | obj (fields : List (String × Json))
  | table (rows : List Json)
deriving Repr, Inhabited

/-- Properties by name, in the order in which they were given. -/
abbrev Fields := OrderedMap String Json

namespace Json

def int (n : Int) : Json := .num (.int n)

def ofNat (n : Nat) : Json := .num (.int n)

def float (x : Binary64) : Json := .num (.float x)

def strings (l : List String) : Json := .arr (l.map .str)

def ofFields (m : Fields) : Json := .obj m.entries

/-- The fields of an object; no other value has fields. -/
def fields? : Json → Option Fields
  | .obj fs => some ⟨fs⟩
  | _ => none

/-- The value of a field of an object. -/
def field? (j : Json) (k : String) : Option Json := j.fields?.bind (·.get? k)

def isNull : Json → Bool
  | .null => true
  | _ => false

def str? : Json → Option String
  | .str s => some s
  | _ => none

/-- A number, with the truth values as 1 and 0. -/
def number? : Json → Option Number
  | .bool b => some (.int (if b then 1 else 0))
  | .num n => some n
  | _ => none

/-- Whether there is anything in a value: a zero, an empty text, list or object, false and null are
empty. -/
def isSubstantial : Json → Bool
  | .null => false
  | .bool b => b
  | .num n => !n.isZero
  | .str s => !s.isEmpty
  | .arr items => !items.isEmpty
  | .table rows => !rows.isEmpty
  | .obj fs => !fs.isEmpty

/-- An object that refers to a signal. -/
def signalRef (expression : String) : Json := .obj [("signal", .str expression)]

/-! ## Equality as data -/

mutual

/-- Whether two values are written alike: the kind of number and the order of keys count. -/
def alike : Json → Json → Bool
  | .null, .null => true
  | .bool a, .bool b => a == b
  | .num m, .num n => decide (m = n)
  | .str a, .str b => a == b
  | .arr xs, .arr ys => alikeItems xs ys
  | .obj fs, .obj gs => alikeFields fs gs
  | .table xs, .table ys => alikeItems xs ys
  | _, _ => false

def alikeItems : List Json → List Json → Bool
  | [], [] => true
  | x :: xs, y :: ys => alike x y && alikeItems xs ys
  | _, _ => false

def alikeFields : List (String × Json) → List (String × Json) → Bool
  | [], [] => true
  | (k, v) :: fs, (l, w) :: gs => k == l && alike v w && alikeFields fs gs
  | _, _ => false

end

mutual

theorem alike_iff : ∀ a b : Json, alike a b = true ↔ a = b
  | .null, b => by cases b <;> simp [alike]
  | .bool a, b => by cases b <;> simp [alike]
  | .num m, b => by cases b <;> simp [alike]
  | .str a, b => by cases b <;> simp [alike]
  | .arr xs, b => by cases b <;> simp [alike, alikeItems_iff xs]
  | .obj fs, b => by cases b <;> simp [alike, alikeFields_iff fs]
  | .table xs, b => by cases b <;> simp [alike, alikeItems_iff xs]

theorem alikeItems_iff : ∀ xs ys : List Json, alikeItems xs ys = true ↔ xs = ys
  | [], ys => by cases ys <;> simp [alikeItems]
  | x :: xs, ys => by cases ys <;> simp [alikeItems, alike_iff x, alikeItems_iff xs]

theorem alikeFields_iff : ∀ fs gs : List (String × Json), alikeFields fs gs = true ↔ fs = gs
  | [], gs => by cases gs <;> simp [alikeFields]
  | (k, v) :: fs, gs => by
    cases gs with
    | nil => simp [alikeFields]
    | cons g gs =>
      obtain ⟨l, w⟩ := g
      simp [alikeFields, alike_iff v, alikeFields_iff fs, and_assoc]

end

instance : DecidableEq Json := fun a b => decidable_of_iff (alike a b = true) (alike_iff a b)

/-! ## Equality by value -/

/-- Which `nan` object a value is, if it is one. -/
def nanObject? : Json → Option Nat
  | .num (.float (.nan i)) => some i
  | _ => none

def isNan (j : Json) : Bool := j.nanObject?.isSome

/-- Whether two values are one `nan` object. -/
def isOneNan (a b : Json) : Bool := a.isNan && a.nanObject? == b.nanObject?

mutual

/-- Equality of values: numbers and truth values by value, objects up to the order of keys. -/
def same : Json → Json → Bool
  | .null, b => b.isNull
  | .bool a, b => match b.number? with
    | some n => Number.same (.int (if a then 1 else 0)) n
    | none => false
  | .num m, b => match b.number? with
    | some n => m.same n
    | none => false
  | .str a, .str b => a == b
  | .arr xs, .arr ys => sameItems xs ys
  | .table xs, .table ys => sameItems xs ys
  | .obj fs, .obj gs => fs.length == gs.length && sameFields fs gs
  | _, _ => false

def sameItems : List Json → List Json → Bool
  | [], [] => true
  | x :: xs, y :: ys => (isOneNan x y || same x y) && sameItems xs ys
  | _, _ => false

/-- Every field of the first list has an equal field in the second. -/
def sameFields : List (String × Json) → List (String × Json) → Bool
  | [], _ => true
  | (k, v) :: rest, gs =>
    (match OrderedMap.find? k gs with
      | some w => isOneNan v w || same v w
      | none => false) && sameFields rest gs

end

/-- Equality of two members of lists or objects: they are one object, or equal. -/
def sameMember (a b : Json) : Bool := isOneNan a b || same a b

/-- Equality of what may be absent; absence equals absence only. -/
def sameOption : Option Json → Option Json → Bool
  | none, none => true
  | some a, some b => same a b
  | _, _ => false

end Json

end ChartLowering
