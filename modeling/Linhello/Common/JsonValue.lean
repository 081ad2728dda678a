import Mathlib.Algebra.GroupWithZero.Nat
import Mathlib.Algebra.Ring.Int.Defs
import Mathlib.Data.List.Basic
/-!
# Records as JSON

Values as a JSON text spells them, and codecs for the shapes a derived reader and writer
give a record. An object keeps its entries as they stand, so that a field may be there
twice. The text itself is a parameter.
-/

namespace Linhello.Common

inductive JsonValue
  | null
  | bool (b : Bool)
  | int (n : Int)
  /-- A number with a point or an exponent, as it is spelled. -/
  | float (text : String)
  | str (s : String)
  | arr (items : List JsonValue)
  | obj (entries : List (String × JsonValue))

structure JsonCodec (α : Type) where
  write : α → JsonValue
  read : JsonValue → Option α

namespace JsonCodec

variable {α β : Type}

def ReadsBack (c : JsonCodec α) (a : α) : Prop := c.read (c.write a) = some a

/-! ## Values -/

def u32 : JsonCodec Nat where
  write n := .int n
  read
    | .int n => if 0 ≤ n ∧ n < 2 ^ 32 then some n.toNat else none
    | _ => none

def string : JsonCodec String where
  write s := .str s
  read
    | .str s => some s
    | _ => none

def list (c : JsonCodec α) : JsonCodec (List α) where
  write as := .arr (as.map c.write)
  read
    | .arr items => items.mapM c.read
    | _ => none

/-- A type written as another, `#[serde(with = ..)]`. -/
def via (c : JsonCodec β) (encode : α → β) (decode : β → Option α) : JsonCodec α where
  write a := c.write (encode a)
  read v := (c.read v).bind decode

def variantName : JsonValue → Option String
  | .str s => some s
  | .obj [(s, .null)] => some s
  | _ => none

def variants (all : List α) (name : α → String) : JsonCodec α where
  write a := .str (name a)
  read v := (variantName v).bind fun s => all.find? fun a => name a = s

theorem readsBack_u32 {n : Nat} (h : n < 2 ^ 32) : u32.ReadsBack n := by
  have hrange : (n : Int) < 2 ^ 32 := by omega
  simp only [ReadsBack, u32, Int.natCast_nonneg, hrange, and_self, if_true, Int.toNat_natCast]

theorem readsBack_string (s : String) : string.ReadsBack s := rfl

theorem readsBack_list {c : JsonCodec α} {as : List α} (h : ∀ a ∈ as, c.ReadsBack a) :
    c.list.ReadsBack as := by
  change (as.map c.write).mapM c.read = some as
  induction as with
  | nil => rfl
  | cons a as ih =>
      have hhead : c.read (c.write a) = some a := h a List.mem_cons_self
      have htail := ih fun b hb => h b (List.mem_cons_of_mem a hb)
      rw [List.map_cons, List.mapM_cons, hhead, htail]
      rfl

theorem readsBack_via {c : JsonCodec β} {encode : α → β} {decode : β → Option α} {a : α}
    (h : c.ReadsBack (encode a)) (hdecode : decode (encode a) = some a) :
    (c.via encode decode).ReadsBack a := by
  change (c.read (c.write (encode a))).bind decode = some a
  rw [h, Option.bind_some, hdecode]

theorem readsBack_variants {all : List α} {name : α → String} {a : α} (hmem : a ∈ all)
    (hinj : ∀ b ∈ all, name b = name a → b = a) : (variants all name).ReadsBack a := by
  change all.find? (fun b => name b = name a) = some a
  cases hfind : all.find? fun b => name b = name a with
  | none =>
      have hnone := List.find?_eq_none.1 hfind a hmem
      exact absurd (decide_eq_true rfl) hnone
  | some b =>
      have hname : decide (name b = name a) = true :=
        List.find?_some (p := fun b => name b = name a) hfind
      rw [hinj b (List.mem_of_find?_eq_some hfind) (of_decide_eq_true hname)]

/-! ## Records -/

/-- The fields of a record, from an object or by their places. -/
def fields (names : List String) : JsonValue → Option (List (String × JsonValue))
  | .obj entries => some entries
  | .arr items => if items.length ≤ names.length then some (names.zip items) else none
  | _ => none

/-- The value of a field; a field that is there twice fails. -/
def once (name : String) (entries : List (String × JsonValue)) : Option (Option JsonValue) :=
  match entries.filter fun entry => entry.1 = name with
  | [] => some none
  | [entry] => some (some entry.2)
  | _ => none

def required (c : JsonCodec α) (name : String) (entries : List (String × JsonValue)) : Option α :=
  match once name entries with
  | some (some v) => c.read v
  | _ => none

/-- A field with `#[serde(default)]`. -/
def defaulted (c : JsonCodec α) (absent : α) (name : String) (entries : List (String × JsonValue)) :
    Option α :=
  match once name entries with
  | some (some v) => c.read v
  | some none => some absent
  | none => none

/-- The tag of an enumeration with `#[serde(tag = ..)]`, and what is left beside it. -/
def tagged (tag : String) : JsonValue → Option (String × JsonValue)
  | .obj entries =>
      match required string tag entries with
      | some kind => some (kind, .obj (entries.filter fun entry => entry.1 ≠ tag))
      | none => none
  | .arr (.str kind :: items) => some (kind, .arr items)
  | _ => none

section Fields

variable {c : JsonCodec α} {name : String} {entries : List (String × JsonValue)} {a absent : α}

theorem required_of_once (h : once name entries = some (some (c.write a))) (hback : c.ReadsBack a) :
    c.required name entries = some a := by
  unfold required
  rw [h]
  exact hback

theorem defaulted_of_once (h : once name entries = some (some (c.write a)))
    (hback : c.ReadsBack a) : c.defaulted absent name entries = some a := by
  unfold defaulted
  rw [h]
  exact hback

theorem defaulted_of_absent (h : once name entries = some none) :
    c.defaulted absent name entries = some absent := by
  unfold defaulted
  rw [h]

end Fields

end JsonCodec

/-! ## Texts -/

/-- Printing and parsing of texts; `failure` is the error for a text that does not fit. -/
structure JsonText where
  print : JsonValue → String
  parse : String → Option JsonValue
  failure : String → String

/-- A character in a string, after the backslash where it needs one. -/
def escapeChar (c : Char) : List Char :=
  if c = '"' then ['\\', '"']
  else if c = '\\' then ['\\', '\\']
  else if c = '\n' then ['\\', 'n']
  else if c = '\r' then ['\\', 'r']
  else if c = '\t' then ['\\', 't']
  else if c.toNat = 8 then ['\\', 'b']
  else if c.toNat = 12 then ['\\', 'f']
  else if c.toNat < 32 then
    ['\\', 'u', '0', '0', Nat.digitChar (c.toNat / 16), Nat.digitChar (c.toNat % 16)]
  else [c]

def quoted (s : String) : String := "\"" ++ String.ofList (s.toList.flatMap escapeChar) ++ "\""

def newLine (depth : Nat) : String := "\n" ++ String.ofList (List.replicate (2 * depth) ' ')

mutual

/-- The text of a value, two blanks deeper in every list and object. -/
def JsonValue.pretty (depth : Nat) : JsonValue → String
  | .null => "null"
  | .bool b => if b then "true" else "false"
  | .int n => toString n
  | .float text => text
  | .str s => quoted s
  | .arr [] => "[]"
  | .arr (item :: items) => "[" ++ newLine (depth + 1) ++ item.pretty (depth + 1) ++
      prettyItems (depth + 1) items ++ newLine depth ++ "]"
  | .obj [] => "\x7b\x7d"
  | .obj ((name, value) :: entries) => "\x7b" ++ newLine (depth + 1) ++ quoted name ++ ": " ++
      value.pretty (depth + 1) ++ prettyEntries (depth + 1) entries ++ newLine depth ++ "\x7d"

def prettyItems (depth : Nat) : List JsonValue → String
  | [] => ""
  | item :: items => "," ++ newLine depth ++ item.pretty depth ++ prettyItems depth items

def prettyEntries (depth : Nat) : List (String × JsonValue) → String
  | [] => ""
  | (name, value) :: entries => "," ++ newLine depth ++ quoted name ++ ": " ++ value.pretty depth ++
      prettyEntries depth entries

end

/-- `serde_json::from_str`. -/
def JsonText.fromStr {α : Type} (J : JsonText) (c : JsonCodec α) (s : String) : Except String α :=
  match (J.parse s).bind c.read with
  | some a => .ok a
  | none => .error (J.failure s)

/-- `serde_json::to_string_pretty`. -/
def JsonText.toStringPretty {α : Type} (J : JsonText) (c : JsonCodec α) (a : α) : String :=
  J.print (c.write a)

theorem JsonText.fromStr_toStringPretty {α : Type} {J : JsonText} {c : JsonCodec α} {a : α}
    (htext : J.parse (J.print (c.write a)) = some (c.write a)) (hback : c.ReadsBack a) :
    J.fromStr c (J.toStringPretty c a) = .ok a := by
  have hread : (J.parse (J.toStringPretty c a)).bind c.read = some a := by
    rw [JsonText.toStringPretty, htext, Option.bind_some]
    exact hback
  unfold JsonText.fromStr
  rw [hread]

def JsonText.of (v : JsonValue) : JsonText where
  print := JsonValue.pretty 0
  parse text := if text = v.pretty 0 then some v else none
  failure _ := "expected value at line 1 column 1"

theorem JsonText.parse_of (v : JsonValue) :
    (JsonText.of v).parse ((JsonText.of v).print v) = some v :=
  if_pos rfl

end Linhello.Common
