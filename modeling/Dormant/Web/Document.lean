import Dormant.Foundations.Places
import Dormant.Web.Apply
import Mathlib.Data.List.Nodup

/-!
# Configuration documents

A TOML document as `toml_edit` keeps it: an ordered tree of tables, inline tables, arrays and
values, with the comments around them. A JSON payload becomes a value, a table or an array of tables.
-/

namespace Dormant.ConfigPatch
set_option autoImplicit false

open ConfigApply Places

/-! ## Items -/

/-- The comments before and after a key or an item, and at the end of an array or an inline table;
whitespace is left out. -/
structure Decor where
  before : Option String
  after : Option String
  inside : Option String
  deriving DecidableEq, Repr

def plain : Decor := ⟨none, none, none⟩

/-- A float is its bits. -/
inductive Scalar where
  | string (text : String)
  | integer (n : ℤ)
  | float (bits : UInt64)
  | boolean (b : Bool)
  | datetime (text : String)
  deriving DecidableEq, Repr

/-- An entry has the comments of its key. -/
inductive Item where
  | scalar (decor : Decor) (s : Scalar)
  | array (decor : Decor) (values : List Item)
  | inlineTable (decor : Decor) (entries : List (String × Decor × Item))
  | table (decor : Decor) (entries : List (String × Decor × Item))
  | arrayOfTables (tables : List Item)

/-- An item with the comments of its key, or of none in an array. -/
abbrev Node := Decor × Item

abbrev Table := List (String × Node)

structure Document where
  root : Table
  trailing : Option String

namespace Item

def isTable : Item → Bool
  | table _ _ => true
  | _ => false

def asTable : Item → Option Table
  | table _ entries => some entries
  | _ => none

def asTableLike : Item → Option Table
  | table _ entries => some entries
  | inlineTable _ entries => some entries
  | _ => none

def asArrayOfTables : Item → Option (List Item)
  | arrayOfTables tables => some tables
  | _ => none

/-- `decor().suffix()` of a value. -/
def suffix : Item → Option String
  | scalar decor _ | array decor _ | inlineTable decor _ => decor.after
  | _ => none

/-- `set_suffix`, for a value, when there is a suffix. -/
def setSuffix (item : Item) (suffix : Option String) : Item :=
  match item, suffix with
  | scalar decor s, some text => scalar { decor with after := some text } s
  | array decor values, some text => array { decor with after := some text } values
  | inlineTable decor entries, some text => inlineTable { decor with after := some text } entries
  | item, _ => item

end Item

def Table.get (t : Table) (key : String) : Option Item := (t.lookup key).map Prod.snd

/-! ## Places -/

inductive Segment where
  | key (k : String)
  | index (i : ℕ)
  deriving DecidableEq, Repr

def Node.child (node : Node) (segment : Segment) : Option Node :=
  match node.2, segment with
  | .table _ entries, .key key => entries.lookup key
  | .inlineTable _ entries, .key key => entries.lookup key
  | .array _ values, .index i => values[i]?.map (plain, ·)
  | .arrayOfTables tables, .index i => tables[i]?.map (plain, ·)
  | _, _ => none

def Table.node (t : Table) : Node := (plain, .table plain t)

/-- What stands at a place of a table, with the comments of its key. -/
def Table.at (t : Table) (place : List Segment) : Option Node := find Node.child t.node place

def Table.SameOff (place : List Segment) (t t' : Table) : Prop :=
  Places.SameOff Node.child place t.node t'.node

/-! ## JSON -/

/-- A `serde_json::Number`. A float is its bits. -/
inductive JsonNumber where
  | posInt (n : UInt64)
  | negInt (n : Int64)
  | float (bits : UInt64)
  deriving DecidableEq

inductive Json where
  | null
  | boolean (b : Bool)
  | number (n : JsonNumber)
  | string (text : String)
  | array (items : List Json)
  | object (members : List (String × Json))

def JsonNumber.asI64 : JsonNumber → Option ℤ
  | posInt n => if n.toNat < 2 ^ 63 then some n.toNat else none
  | negInt n => some n.toInt
  | float _ => none

/-- The bits of the float nearest to a number; a tie goes to the even one. -/
def f64Bits (n : ℕ) : ℕ :=
  if n = 0 then 0
  else
    let exponent := Nat.log2 n
    if exponent ≤ 52 then (1022 + exponent) * 2 ^ 52 + n * 2 ^ (52 - exponent)
    else
      let unit := 2 ^ (exponent - 52)
      let quotient := n / unit
      let remainder := n % unit
      let up := 2 * remainder > unit ∨ 2 * remainder = unit ∧ quotient % 2 = 1
      (1022 + exponent) * 2 ^ 52 + quotient + if up then 1 else 0

example : f64Bits 1 = 0x3ff0000000000000 := by decide

/-- Every number has an answer. -/
def JsonNumber.asF64 : JsonNumber → UInt64
  | posInt n => UInt64.ofNat (f64Bits n.toNat)
  | negInt n => UInt64.ofNat (2 ^ 63 + f64Bits n.toInt.natAbs)
  | float bits => bits

def JsonNumber.ofInt (n : ℤ) : JsonNumber :=
  if 0 ≤ n then posInt (UInt64.ofNat n.toNat) else negInt (Int64.ofInt n)

mutual

/-- The value and all that is in it. -/
def Json.All (p : Json → Prop) : Json → Prop
  | .array items => p (.array items) ∧ ItemsAll p items
  | .object members => p (.object members) ∧ MembersAll p members
  | json => p json

def ItemsAll (p : Json → Prop) : List Json → Prop
  | [] => True
  | item :: items => item.All p ∧ ItemsAll p items

def MembersAll (p : Json → Prop) : List (String × Json) → Prop
  | [] => True
  | member :: members => member.2.All p ∧ MembersAll p members

end

/-- A `serde_json::Map` has each key once, and a number is only kept as `negInt` below zero. -/
def Json.Proper : Json → Prop
  | .number (.negInt n) => n.toInt < 0
  | .object members => (members.map Prod.fst).Nodup
  | _ => True

/-- The value of a patch. -/
structure Payload where
  json : Json
  proper : json.All Json.Proper

mutual

/-- The item as JSON, with a date as its text. -/
def Item.toJson : Item → Json
  | .scalar _ (.string text) => .string text
  | .scalar _ (.integer n) => .number (.ofInt n)
  | .scalar _ (.float bits) => .number (.float bits)
  | .scalar _ (.boolean b) => .boolean b
  | .scalar _ (.datetime text) => .string text
  | .array _ values => .array (itemsToJson values)
  | .inlineTable _ entries => .object (entriesToJson entries)
  | .table _ entries => .object (entriesToJson entries)
  | .arrayOfTables tables => .array (itemsToJson tables)

def itemsToJson : List Item → List Json
  | [] => []
  | item :: items => item.toJson :: itemsToJson items

def entriesToJson : List (String × Decor × Item) → List (String × Json)
  | [] => []
  | entry :: entries => (entry.1, entry.2.2.toJson) :: entriesToJson entries

end

/-! ## Conversion of payloads -/

mutual

def jsonToTomlValue : Json → Except PatchError Item
  | .string text => .ok (.scalar plain (.string text))
  | .number n =>
    match n.asI64 with
    | some i => .ok (.scalar plain (.integer i))
    -- The rejection of a number that is no float either is never reached.
    | none => .ok (.scalar plain (.float n.asF64))
  | .boolean b => .ok (.scalar plain (.boolean b))
  | .null => .error (.valueRejected "JSON null is not a valid TOML value")
  | .array items => do return .array plain (← jsonToTomlValues items)
  | .object members => do return .inlineTable plain (← jsonToTomlEntries members [])

def jsonToTomlValues : List Json → Except PatchError (List Item)
  | [] => .ok []
  | item :: items => do
    let value ← jsonToTomlValue item
    return value :: (← jsonToTomlValues items)

/-- The members one after the other, each put into the table. -/
def jsonToTomlEntries : List (String × Json) → Table → Except PatchError Table
  | [], table => .ok table
  | member :: members, table => do
    let value ← jsonToTomlValue member.2
    jsonToTomlEntries members (Entries.put member.1 (plain, value) table)

end

def Json.isNull : Json → Bool
  | .null => true
  | _ => false

/-- A field that is null is left out, and so is one that does not convert. -/
def putField (table : Table) (member : String × Json) : Table :=
  if member.2.isNull then table
  else
    match jsonToTomlValue member.2 with
    | .ok value => Entries.put member.1 (plain, value) table
    | .error _ => table

def jsonToTomlTable : Json → Table
  | .object members => members.foldl putField []
  | _ => []

/-- An entry of an array of tables. -/
def jsonToEntry : Json → Except PatchError Item
  | .object members => do return .table plain (← jsonToTomlEntries members [])
  | _ => .error (.valueRejected "ArrayOfTables entries must be JSON objects")

def jsonToArrayOfTables : Json → Except PatchError Item
  | .array items => do return .arrayOfTables (← items.mapM jsonToEntry)
  | _ => .error (.valueRejected "expected JSON array for ArrayOfTables")

end Dormant.ConfigPatch
