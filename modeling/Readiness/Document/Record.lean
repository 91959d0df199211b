import Readiness.Document.Reading

/-!
# Document — Record

Decoding readings into records.

* `Fault` names what is wrong with a reading;
* `text`, `flag`, `natural`, `optional`, `items` decode single values;
* `Record.read` assigns the members of a table, or the items of a list, to the fields of a record.

Members are looked at in text order and a fault is reported where it is met; a field that is
missing is reported once the end of the record is reached.
-/

namespace Readiness

/-- What is wrong with a reading. -/
inductive Fault where
  /-- The text is no document at all. -/
  | malformed
  | missingField (name : String)
  | unknownVariant (name : String) (known : List String)
  | duplicateField (name : String)
  | wrongType
  | wrongValue
  | wrongLength
  /-- A value of a form that no variant has. -/
  | unusable
deriving DecidableEq, Repr

/-- The names in backquotes, separated by commas. -/
def Fault.listing (names : List String) : String :=
  Text.join ", " (names.map fun n => "`" ++ n ++ "`")

/-- The wording of a fault. -/
def Fault.message : Fault → String
  | .malformed           => "malformed document"
  | .missingField n      => "missing field `" ++ n ++ "`"
  | .unknownVariant n ks => "unknown variant `" ++ n ++ "`, expected one of " ++ Fault.listing ks
  | .duplicateField n    => "duplicate field `" ++ n ++ "`"
  | .wrongType           => "invalid type"
  | .wrongValue          => "invalid value"
  | .wrongLength         => "invalid length"
  | .unusable            => "wanted string or table"

/-- Reads one value. -/
abbrev Decoder (α : Type) := Reading → Except Fault α

namespace Decoder

/-- The fault of a value that is none of the wanted ones. -/
def mismatch : Reading → Fault
  | .broken | .outOfRange | .text none => .malformed
  | _ => .wrongType

/-- A string. -/
def text : Decoder String
  | .text (some s) => .ok s
  | r => .error (mismatch r)

/-- A truth value. -/
def flag : Decoder Bool
  | .bool b => .ok b
  | r => .error (mismatch r)

/-- A natural number up to `bound`.  A number beyond 64 bits is of no integer type at all. -/
def natural (bound : Nat) : Decoder Nat
  | .integer i =>
    if 2 ^ 64 ≤ i then .error .wrongType
    else if i < 0 ∨ bound < i.toNat then .error .wrongValue
    else .ok i.toNat
  | r => .error (mismatch r)

/-- A value or `null`. -/
def optional {α : Type} (f : Decoder α) : Decoder (Option α)
  | .null => .ok none
  | r => (f r).map some

/-- Each item in order. -/
def each {α : Type} (f : Decoder α) : List Reading → Except Fault (List α)
  | [] => .ok []
  | x :: xs => do
    let a ← f x
    let as ← each f xs
    return a :: as

/-- A list of values. -/
def items {α : Type} (f : Decoder α) : Decoder (List α)
  | .list xs closed => do
    let as ← each f xs
    if closed then return as else throw .malformed
  | r => .error (mismatch r)

/-- Only whether the value decodes. -/
def check {α : Type} (f : Decoder α) : Decoder Unit := fun r => (f r).map fun _ => ()

end Decoder

/-! ### Records -/

/-- What it means that a field is absent. -/
inductive Absence where
  /-- A fault. -/
  | refused
  /-- No value; but a record written as a list cannot leave it out. -/
  | nullable
  /-- The default, in either form of the record. -/
  | defaulted
deriving DecidableEq

/-- A field of a record: its name, what its value must be, and whether it may be absent. -/
structure Field where
  name : String
  check : Decoder Unit
  absent : Absence

/-- What becomes of items that are more than the fields of a record written as a list. -/
inductive Surplus where
  | malformed
  | wrongLength
  | ignored
deriving DecidableEq

/-- The values of the fields that are present. -/
abbrev Slots := List (String × Reading)

namespace Record

def required {α : Type} (name : String) (f : Decoder α) : Field := ⟨name, f.check, .refused⟩

def defaulted {α : Type} (name : String) (f : Decoder α) : Field := ⟨name, f.check, .defaulted⟩

def nullable {α : Type} (name : String) (f : Decoder α) : Field :=
  ⟨name, (Decoder.optional f).check, .nullable⟩

/-- The first field that may not be absent and is. -/
def missing? (fields : List Field) (slots : Slots) : Option String :=
  (fields.find? fun f => f.absent == .refused && (slots.lookup f.name).isNone).map (·.name)

/-- The slots of a record written as a table. -/
def ofMembers (fields : List Field) (closed : Bool) :
    List (String × Reading) → Slots → Except Fault Slots
  | [], slots =>
    if !closed then .error .malformed
    else
      match missing? fields slots with
      | some name => .error (.missingField name)
      | none => .ok slots
  | (k, v) :: ms, slots =>
    match fields.find? fun f => f.name == k with
    | none => if v.wellFormed then ofMembers fields closed ms slots else .error .malformed
    | some f =>
      if (slots.lookup k).isSome then .error (.duplicateField k)
      else
        match f.check v with
        | .error e => .error e
        | .ok () => ofMembers fields closed ms (slots ++ [(k, v)])

/-- The slots of a record written as a list. -/
def ofItems (surplus : Surplus) (closed : Bool) :
    List Field → List Reading → Slots → Except Fault Slots
  | [], [], slots => if closed then .ok slots else .error .malformed
  | [], _ :: _, slots =>
    match surplus with
    | .malformed => .error .malformed
    | .wrongLength => .error .wrongLength
    | .ignored => .ok slots
  | f :: fs, [], slots =>
    if !closed then .error .malformed
    else if f.absent == .defaulted then ofItems surplus closed fs [] slots
    else .error .wrongLength
  | f :: fs, x :: xs, slots =>
    match f.check x with
    | .error e => .error e
    | .ok () => ofItems surplus closed fs xs (slots ++ [(f.name, x)])

/-- The slots of a record. -/
def read (surplus : Surplus) (fields : List Field) : Decoder Slots
  | .table ms closed => ofMembers fields closed ms []
  | .list xs closed => ofItems surplus closed fields xs []
  | r => .error (Decoder.mismatch r)

end Record

namespace Slots

/-- The value of a field that must be present. -/
def get {α : Type} (slots : Slots) (name : String) (f : Decoder α) : Except Fault α :=
  match slots.lookup name with
  | some r => f r
  | none => .error (.missingField name)

/-- The value of a field, or its default when it is absent. -/
def getD {α : Type} (slots : Slots) (name : String) (f : Decoder α) (default : α) :
    Except Fault α :=
  match slots.lookup name with
  | some r => f r
  | none => .ok default

end Slots

end Readiness
