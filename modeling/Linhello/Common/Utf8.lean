import Linhello.Common.Error
import Linhello.Common.Text
/-!
# Text as bytes

The encoding of a text in a file, and the lines of a file that need not be text: for a
text they are the encoded lines.
-/

namespace Linhello.Common

/-- `str::as_bytes`. -/
def utf8 (s : String) : Bytes := s.toByteArray.data.toList

/-- `String::from_utf8`. -/
def ofUtf8 (b : Bytes) : Option String := String.fromUTF8? ⟨b.toArray⟩

theorem ofUtf8_utf8 (s : String) : ofUtf8 (utf8 s) = some s := by
  have hbytes : (⟨(utf8 s).toArray⟩ : ByteArray) = s.toByteArray := by
    rw [utf8, Array.toArray_toList]
  rw [ofUtf8, hbytes, String.fromUTF8?, dif_pos s.isValidUTF8]
  rfl

theorem utf8_of_ofUtf8 {b : Bytes} {s : String} (h : ofUtf8 b = some s) : utf8 s = b := by
  unfold ofUtf8 String.fromUTF8? at h
  split at h
  · rw [← Option.some.inj h]
    rfl
  · exact nomatch h

theorem utf8_inj {s t : String} (h : utf8 s = utf8 t) : s = t := by
  have hread := ofUtf8_utf8 s
  rw [h, ofUtf8_utf8] at hread
  exact (Option.some.inj hread).symm

def encodeChars (cs : List Char) : Bytes := cs.flatMap String.utf8EncodeChar

theorem utf8_ofList (cs : List Char) : utf8 (String.ofList cs) = encodeChars cs := by
  rw [utf8, String.toByteArray_ofList, List.utf8Encode, encodeChars]
  simp

theorem utf8_eq (s : String) : utf8 s = encodeChars s.toList := by
  rw [← utf8_ofList, String.ofList_toList]

/-- A byte below 128 is the character it stands for, and nothing else of one. -/
theorem utf8EncodeChar_of_mem {c : Char} {b : UInt8} (hb : b.toNat < 128)
    (h : b ∈ String.utf8EncodeChar c) : String.utf8EncodeChar c = [b] ∧ c.toNat = b.toNat := by
  have hlow : ∀ n, n < 256 → (UInt8.ofNat n).toNat = n := by
    intro n hn
    exact UInt8.toNat_ofNat_of_lt' hn
  unfold String.utf8EncodeChar at h ⊢
  dsimp only at h ⊢
  have hval : c.val.toNat = c.toNat := rfl
  rw [hval] at h ⊢
  split at h
  · rename_i hle
    rw [if_pos hle]
    have heq := List.mem_singleton.1 h
    rw [heq, hlow _ (by omega)]
    exact ⟨rfl, rfl⟩
  · -- every byte of a longer encoding has its top bit set
    have htop : ∀ n k, b = UInt8.ofNat (n + k) → 128 ≤ k → n + k < 256 → False := by
      intro n k heq hk hlt
      rw [heq, hlow _ hlt] at hb
      omega
    exfalso
    split at h
    · simp only [List.mem_cons, List.not_mem_nil, or_false] at h
      rcases h with h | h
      · exact htop _ _ h (by omega) (by omega)
      · exact htop _ _ h (by omega) (by omega)
    · split at h
      · simp only [List.mem_cons, List.not_mem_nil, or_false] at h
        rcases h with h | h | h
        · exact htop _ _ h (by omega) (by omega)
        · exact htop _ _ h (by omega) (by omega)
        · exact htop _ _ h (by omega) (by omega)
      · simp only [List.mem_cons, List.not_mem_nil, or_false] at h
        rcases h with h | h | h | h
        · exact htop _ _ h (by omega) (by omega)
        · exact htop _ _ h (by omega) (by omega)
        · exact htop _ _ h (by omega) (by omega)
        · exact htop _ _ h (by omega) (by omega)

theorem eq_of_mem_utf8EncodeChar {c d : Char} {b : UInt8} (hb : b.toNat < 128)
    (hd : d.toNat = b.toNat) (h : b ∈ String.utf8EncodeChar c) : c = d := by
  obtain ⟨-, hc⟩ := utf8EncodeChar_of_mem hb h
  exact Char.ext (UInt32.toNat_inj.1 (hc.trans hd.symm))

/-! ## Lines of bytes -/

/-- The lines still to come; `cur` holds the current line backwards. -/
def linesOfBytesFrom (cur : Bytes) : Bytes → List Bytes
  | [] => if cur = [] then [] else [cur.reverse]
  | b :: rest =>
      if b = 10 then
        let line := match cur with
          | 13 :: body => body
          | body => body
        line.reverse :: linesOfBytesFrom [] rest
      else linesOfBytesFrom (b :: cur) rest

/-- `str::lines` on a file that need not be text. -/
def linesOfBytes (b : Bytes) : List Bytes := linesOfBytesFrom [] b

theorem linesOfBytesFrom_append {bs : Bytes} (h : 10 ∉ bs) (cur rest : Bytes) :
    linesOfBytesFrom cur (bs ++ rest) = linesOfBytesFrom (bs.reverse ++ cur) rest := by
  induction bs generalizing cur with
  | nil => rfl
  | cons b bs ih =>
      have hb : b ≠ 10 := fun hb => h (by rw [hb]; exact List.mem_cons_self)
      have hbs : 10 ∉ bs := fun hmem => h (List.mem_cons_of_mem _ hmem)
      rw [List.cons_append, linesOfBytesFrom.eq_def]
      dsimp only
      rw [if_neg hb, ih hbs, List.reverse_cons, List.append_assoc]
      rfl

theorem encodeChars_eq_nil {cs : List Char} : encodeChars cs = [] ↔ cs = [] := by
  cases cs with
  | nil => exact iff_of_true rfl rfl
  | cons c cs =>
      refine iff_of_false ?_ (List.cons_ne_nil c cs)
      intro hnil
      have hlen : (String.utf8EncodeChar c).length = 0 := by
        rw [encodeChars, List.flatMap_cons, List.append_eq_nil_iff] at hnil
        rw [hnil.1, List.length_nil]
      have hsize := Char.utf8Size_pos c
      rw [String.length_utf8EncodeChar] at hlen
      omega

theorem encodeChars_cons (c : Char) (cs : List Char) :
    encodeChars (c :: cs) = String.utf8EncodeChar c ++ encodeChars cs := List.flatMap_cons

theorem encodeChars_append (a b : List Char) :
    encodeChars (a ++ b) = encodeChars a ++ encodeChars b := List.flatMap_append

/-- The current line of bytes without a carriage return at its end. -/
theorem lineOfBytes_eq (cur : List Char) :
    (match (encodeChars cur.reverse).reverse with
      | 13 :: body => body
      | body => body).reverse =
    encodeChars (match cur with
      | '\r' :: body => body
      | body => body).reverse := by
  have hreturn : String.utf8EncodeChar '\r' = [13] := by decide
  cases cur with
  | nil => rfl
  | cons c body =>
      have hback : (encodeChars (c :: body).reverse).reverse =
          (String.utf8EncodeChar c).reverse ++ (encodeChars body.reverse).reverse := by
        rw [List.reverse_cons, encodeChars_append, List.reverse_append, encodeChars_cons]
        simp [encodeChars]
      by_cases hc : c = '\r'
      · rw [hback, hc, hreturn]
        simp
      · obtain ⟨b, rest, hbytes⟩ : ∃ b rest, (String.utf8EncodeChar c).reverse = b :: rest := by
          apply List.exists_cons_of_ne_nil
          intro hnil
          have hlen := congrArg List.length hnil
          have hsize := Char.utf8Size_pos c
          rw [List.length_reverse, String.length_utf8EncodeChar, List.length_nil] at hlen
          omega
        have hb : b ≠ 13 := by
          intro hb
          apply hc
          have hmem : b ∈ String.utf8EncodeChar c := by
            rw [← List.mem_reverse, hbytes]
            exact List.mem_cons_self
          rw [hb] at hmem
          exact eq_of_mem_utf8EncodeChar (by decide) rfl hmem
        rw [hback, hbytes, List.cons_append]
        have hleft : (match b :: (rest ++ (encodeChars body.reverse).reverse) with
            | 13 :: body => body
            | body => body) = b :: (rest ++ (encodeChars body.reverse).reverse) := by
          split
          · rename_i heq
            exact absurd (List.cons.inj heq).1 hb
          · rfl
        have hright : (match c :: body with
            | '\r' :: body => body
            | body => body) = c :: body := by
          split
          · rename_i heq
            exact absurd (List.cons.inj heq).1 hc
          · rfl
        rw [hleft, hright, ← List.cons_append, ← hbytes, ← hback, List.reverse_reverse]

private theorem linesOfBytesFrom_encodeChars (cur cs : List Char) :
    linesOfBytesFrom (encodeChars cur.reverse).reverse (encodeChars cs) =
      (linesFrom cur cs).map utf8 := by
  have hnewline : String.utf8EncodeChar '\n' = [10] := by decide
  induction cs generalizing cur with
  | nil =>
      rw [linesFrom]
      change linesOfBytesFrom _ [] = _
      rw [linesOfBytesFrom]
      by_cases hcur : cur = []
      · rw [if_pos hcur, hcur]
        rfl
      · have hbytes : (encodeChars cur.reverse).reverse ≠ [] := by
          rw [Ne, List.reverse_eq_nil_iff, encodeChars_eq_nil, List.reverse_eq_nil_iff]
          exact hcur
        rw [if_neg hcur, if_neg hbytes, List.reverse_reverse, List.map_cons, utf8_ofList]
        rfl
  | cons c cs ih =>
      rw [encodeChars_cons]
      by_cases hc : c = '\n'
      · rw [hc, hnewline, List.singleton_append, linesOfBytesFrom.eq_def, linesFrom.eq_def]
        dsimp only
        rw [if_pos rfl, if_pos rfl, List.map_cons, utf8_ofList]
        exact congrArg₂ List.cons (lineOfBytes_eq cur) (ih [])
      · have hbytes : 10 ∉ String.utf8EncodeChar c :=
          fun hmem => hc (eq_of_mem_utf8EncodeChar (by decide) rfl hmem)
        have hcur : (String.utf8EncodeChar c).reverse ++ (encodeChars cur.reverse).reverse =
            (encodeChars (c :: cur).reverse).reverse := by
          rw [List.reverse_cons, encodeChars_append, List.reverse_append, encodeChars_cons]
          simp [encodeChars]
        rw [linesOfBytesFrom_append hbytes, hcur, ih, linesFrom_cons_of_ne hc]

theorem linesOfBytes_utf8 (s : String) : linesOfBytes (utf8 s) = (lines s).map utf8 := by
  have hrun := linesOfBytesFrom_encodeChars [] s.toList
  rw [← utf8_eq] at hrun
  exact hrun

end Linhello.Common
