import Mathlib.Data.Rat.Defs
import Mathlib.Order.WithBot
import Linhello.Common.JsonValue
/-!
# Messages as JSON

Records on a wire: numbers of a width, optional fields, floats, and enumerations whose tag
stands among the fields. What an object has to carry for a record to be read from it is
independent of the order of its entries and of entries the record does not name.
-/

namespace Linhello.Common.JsonCodec

variable {α β : Type}

/-! ## Values -/

def bool : JsonCodec Bool where
  write b := .bool b
  read
    | .bool b => some b
    | _ => none

/-- An unsigned number below `bound`. -/
def natBelow (bound : Nat) : JsonCodec Nat where
  write n := .int n
  read
    | .int n => if 0 ≤ n ∧ n < bound then some n.toNat else none
    | _ => none

def u8 : JsonCodec Nat := natBelow (2 ^ 8)

def usize : JsonCodec Nat := natBelow (2 ^ 64)

def byte : JsonCodec UInt8 := u8.via UInt8.toNat fun n => some (UInt8.ofNat n)

def writeOption (c : JsonCodec α) : Option α → JsonValue
  | none => .null
  | some a => c.write a

def readOption (c : JsonCodec α) : JsonValue → Option (Option α)
  | .null => some none
  | v => (c.read v).map some

/-- `Option<T>`: nothing is null. -/
def option (c : JsonCodec α) : JsonCodec (Option α) where
  write := c.writeOption
  read := c.readOption

/-- The numbers of a float type as they are spelled, and the one an integer is read as. -/
structure FloatText where
  print : ℚ → String
  parse : String → Option ℚ
  ofInt : Int → ℚ

def finite (F : FloatText) : JsonCodec ℚ where
  write q := .float (F.print q)
  read
    | .float text => F.parse text
    | .int n => some (F.ofInt n)
    | _ => none

/-- A float that may be minus infinity, which is written as null. -/
def float (F : FloatText) : JsonCodec (WithBot ℚ) where
  write := (finite F).writeOption
  read v := ((finite F).read v).map WithBot.some

theorem readsBack_bool (b : Bool) : bool.ReadsBack b := rfl

theorem readsBack_natBelow {bound n : Nat} (h : n < bound) : (natBelow bound).ReadsBack n := by
  have hrange : (n : Int) < bound := by omega
  simp only [ReadsBack, natBelow, Int.natCast_nonneg, hrange, and_self, if_true, Int.toNat_natCast]

theorem readsBack_byte (b : UInt8) : byte.ReadsBack b := by
  apply readsBack_via (readsBack_natBelow (UInt8.toNat_lt b))
  rw [UInt8.ofNat_toNat]

theorem option_read_null (c : JsonCodec α) : c.option.read .null = some none := rfl

theorem readsBack_none (c : JsonCodec α) : c.option.ReadsBack none := rfl

private theorem readsBack_some {c : JsonCodec α} {a : α} (hnull : c.write a ≠ .null)
    (h : c.ReadsBack a) :
    c.option.ReadsBack (some a) := by
  have hread : c.read (c.write a) = some a := h
  change c.readOption (c.write a) = some (some a)
  unfold readOption
  split
  · rename_i hwrite
    exact absurd hwrite hnull
  · rw [hread]
    rfl

theorem readsBack_option {c : JsonCodec α} {o : Option α} (hnull : ∀ a, c.write a ≠ .null)
    (h : ∀ a ∈ o, c.ReadsBack a) : c.option.ReadsBack o := by
  cases o with
  | none => exact readsBack_none c
  | some a => exact readsBack_some (hnull a) (h a rfl)

theorem string_ne_null (s : String) : string.write s ≠ .null := by
  intro h
  cases h

theorem list_ne_null (c : JsonCodec α) (as : List α) : c.list.write as ≠ .null := by
  intro h
  cases h

theorem finite_ne_null (F : FloatText) (q : ℚ) : (finite F).write q ≠ .null := by
  intro h
  cases h

theorem readsBack_float {F : FloatText} {q : ℚ} (h : (finite F).ReadsBack q) :
    (float F).ReadsBack (q : WithBot ℚ) := by
  have hread : (finite F).read ((finite F).write q) = some q := h
  change ((finite F).read ((finite F).write q)).map WithBot.some = some (WithBot.some q)
  rw [hread]
  rfl

/-- A float is written as something that reads back unless it is minus infinity. -/
theorem float_read_bot (F : FloatText) : (float F).read ((float F).write ⊥) = none := rfl

/-! ## Entries -/

/-- The entry of a name in an object that names nothing twice. -/
theorem once_of_mem {entries : List (String × JsonValue)} {name : String} {v : JsonValue}
    (hnames : (entries.map Prod.fst).Nodup) (h : (name, v) ∈ entries) :
    once name entries = some (some v) := by
  induction entries with
  | nil => cases h
  | cons entry entries ih =>
      rw [List.map_cons, List.nodup_cons] at hnames
      rcases List.mem_cons.1 h with rfl | hrest
      · have hfilter : entries.filter (fun entry => entry.1 = name) = [] := by
          apply List.filter_eq_nil_iff.2
          intro other hother hname
          apply hnames.1
          have hmem : other.1 ∈ entries.map Prod.fst := List.mem_map_of_mem hother
          rwa [of_decide_eq_true hname] at hmem
        have hhead : ((name, v) :: entries).filter (fun entry => entry.1 = name) = [(name, v)] := by
          rw [List.filter_cons_of_pos (by simp), hfilter]
        unfold once
        rw [hhead]
      · have hne : ¬ entry.1 = name := by
          intro hname
          have hmem : name ∈ entries.map Prod.fst := List.mem_map_of_mem hrest
          rw [← hname] at hmem
          exact hnames.1 hmem
        have htail : (entry :: entries).filter (fun entry => entry.1 = name) =
            entries.filter fun entry => entry.1 = name :=
          List.filter_cons_of_neg (by simpa using hne)
        unfold once
        rw [htail]
        exact ih hnames.2 hrest

/-- The entries beside the tag are untouched where the tag is taken out. -/
theorem once_filter_ne {name tag : String} (h : name ≠ tag) (entries : List (String × JsonValue)) :
    once name (entries.filter fun entry => entry.1 ≠ tag) = once name entries := by
  have hfilter : (entries.filter fun entry => entry.1 ≠ tag).filter (fun entry => entry.1 = name) =
      entries.filter fun entry => entry.1 = name := by
    rw [List.filter_filter]
    apply List.filter_congr
    intro entry _
    by_cases hname : entry.1 = name
    · simp [hname, h]
    · simp [hname]
  unfold once
  rw [hfilter]

/-- What the entries have for a name: the value, or nothing where it is the default. -/
def Supplies (defaults entries : List (String × JsonValue)) (name : String)
    (v : JsonValue) : Prop :=
  once name entries = some (some v) ∨ once name entries = some none ∧ (name, v) ∈ defaults

/-- The entries carry a record, in any order and among others. -/
def Carries (defaults written entries : List (String × JsonValue)) : Prop :=
  ∀ name v, (name, v) ∈ written → Supplies defaults entries name v

theorem Carries.filter_ne {defaults written entries : List (String × JsonValue)} {tag : String}
    (h : Carries defaults written entries) (htag : tag ∉ written.map Prod.fst) :
    Carries defaults written (entries.filter fun entry => entry.1 ≠ tag) := by
  intro name v hmem
  have hne : name ≠ tag := by
    rintro rfl
    exact htag (List.mem_map_of_mem hmem)
  unfold Supplies
  rw [once_filter_ne hne]
  exact h name v hmem

theorem read_step {o : Option α} {a : α} {k : α → Option β} {b : β} (h : o = some a)
    (hrest : k a = some b) : (o >>= k) = some b := by
  rw [h]
  exact hrest

theorem read_fails {o : Option α} {k : α → Option β} (h : o = none ∨ ∀ a, k a = none) :
    (o >>= k) = none := by
  cases o with
  | none => rfl
  | some a =>
      rcases h with hnone | hrest
      · cases hnone
      · exact hrest a

theorem read_past {o : Option α} {a : α} {k : α → Option β} (h : o = some a)
    (hrest : k a = none) : (o >>= k) = none := by
  rw [h]
  exact hrest

theorem list_unreadable {c : JsonCodec α} {as : List α} {a : α} (hmem : a ∈ as)
    (h : c.read (c.write a) = none) : c.list.read (c.list.write as) = none := by
  change (as.map c.write).mapM c.read = none
  induction as with
  | nil => cases hmem
  | cons b as ih =>
      rw [List.map_cons, List.mapM_cons]
      rcases List.mem_cons.1 hmem with rfl | hrest
      · rw [h]
        rfl
      · apply read_fails
        right
        intro b'
        rw [ih hrest]
        rfl

theorem option_unreadable {c : JsonCodec α} {a : α} (hnull : c.write a ≠ .null)
    (h : c.read (c.write a) = none) : c.option.read (c.option.write (some a)) = none := by
  change c.readOption (c.write a) = none
  unfold readOption
  split
  · rename_i hwrite
    exact absurd hwrite hnull
  · rw [h]
    rfl

section Supplied

variable {c : JsonCodec α} {name : String} {defaults entries : List (String × JsonValue)}
  {a absent : α}

theorem required_of_supplies (h : Supplies defaults entries name (c.write a))
    (hrequired : name ∉ defaults.map Prod.fst) (hback : c.ReadsBack a) :
    c.required name entries = some a := by
  rcases h with hthere | ⟨-, hdefault⟩
  · exact required_of_once hthere hback
  · exact absurd (List.mem_map_of_mem hdefault) hrequired

theorem defaulted_of_supplies (h : Supplies defaults entries name (c.write a))
    (hdefault : ∀ v, (name, v) ∈ defaults → c.read v = some absent) (hback : c.ReadsBack a) :
    c.defaulted absent name entries = some a := by
  rcases h with hthere | ⟨hnot, hmem⟩
  · exact defaulted_of_once hthere hback
  · have hread : c.read (c.write a) = some a := hback
    rw [defaulted_of_absent hnot, ← hdefault _ hmem, hread]

theorem required_of_unreadable (h : once name entries = some (some (c.write a)))
    (hread : c.read (c.write a) = none) : c.required name entries = none := by
  unfold required
  rw [h]
  exact hread

theorem defaulted_of_unreadable (h : once name entries = some (some (c.write a)))
    (hread : c.read (c.write a) = none) : c.defaulted absent name entries = none := by
  unfold defaulted
  rw [h]
  exact hread

end Supplied

/-! ## Tagged enumerations -/

/-- A variant: its name and the reader of what is left beside the tag. -/
structure Variant (α : Type) where
  name : String
  read : JsonValue → Option α

/-- What is left beside the tag of a variant without data. -/
def emptyRest (a : α) : JsonValue → Option α
  | .obj _ | .arr [] => some a
  | _ => none

/-- A variant with fields, in the order of its declaration. -/
def fieldsRest (names : List String) (read : List (String × JsonValue) → Option α)
    (rest : JsonValue) : Option α :=
  (fields names rest).bind read

def readTagged (tag : String) (all : List (Variant α)) (v : JsonValue) : Option α :=
  (tagged tag v).bind fun found =>
    (all.find? fun variant => variant.name = found.1).bind fun variant => variant.read found.2

theorem find?_variant {all : List (Variant α)} {variant : Variant α}
    (hnames : (all.map Variant.name).Nodup) (h : variant ∈ all) :
    all.find? (fun other => other.name = variant.name) = some variant := by
  induction all with
  | nil => cases h
  | cons other all ih =>
      rw [List.map_cons, List.nodup_cons] at hnames
      rcases List.mem_cons.1 h with rfl | hrest
      · exact List.find?_cons_of_pos (decide_eq_true rfl)
      · have hne : ¬ other.name = variant.name := by
          intro hname
          apply hnames.1
          rw [hname]
          exact List.mem_map_of_mem hrest
        rw [List.find?_cons_of_neg (by simpa using hne)]
        exact ih hnames.2 hrest

theorem readTagged_of_mem {tag : String} {all : List (Variant α)} {variant : Variant α}
    {entries : List (String × JsonValue)} (hnames : (all.map Variant.name).Nodup)
    (h : variant ∈ all) (htag : once tag entries = some (some (.str variant.name))) :
    readTagged tag all (.obj entries) =
      variant.read (.obj (entries.filter fun entry => entry.1 ≠ tag)) := by
  have hfound : tagged tag (.obj entries) =
      some (variant.name, .obj (entries.filter fun entry => entry.1 ≠ tag)) := by
    have hkind : string.required tag entries = some variant.name :=
      required_of_once htag (readsBack_string _)
    simp only [tagged, hkind]
  rw [readTagged, hfound, Option.bind_some, find?_variant hnames h, Option.bind_some]

end Linhello.Common.JsonCodec
