import Linhello.Common.Error
/-!
# The text of a path

`PathBuf::join` on the text of a path, and the walk an operating system takes along
it: empty parts and `.` stay where they are, `..` goes up one level.
-/

namespace Linhello.Common

abbrev PathText := List Char

/-- `PathBuf::join`: an absolute second path replaces the first one. -/
def PathText.join (base part : PathText) : PathText :=
  if part.head? = some '/' then part
  else if base.getLast? = some '/' then base ++ part
  else base ++ '/' :: part

def walkPart (reached : List PathText) (part : PathText) : List PathText :=
  if part = [] ∨ part = ['.'] then reached
  else if part = ['.', '.'] then reached.dropLast
  else reached ++ [part]

/-- The names on the way from the root directory to the place a path leads to. -/
def PathText.components (p : PathText) : List PathText := (p.splitOn '/').foldl walkPart []

/-- A name that leads exactly one level down. -/
structure IsComponent (name : PathText) : Prop where
  nonempty : name ≠ []
  notDot : name ≠ ['.']
  notDotDot : name ≠ ['.', '.']
  noSlash : '/' ∉ name

private theorem walkPart_of_isComponent {name : PathText} (h : IsComponent name)
    (reached : List PathText) :
    walkPart reached name = reached ++ [name] := by
  rw [walkPart, if_neg (not_or.2 ⟨h.nonempty, h.notDot⟩), if_neg h.notDotDot]

theorem components_join {base name : PathText} (h : IsComponent name)
    (hbase : base.getLast? ≠ some '/') :
    (base.join name).components = base.components ++ [name] := by
  have hhead : name.head? ≠ some '/' := by
    intro hslash
    exact h.noSlash (List.mem_of_head? hslash)
  rw [PathText.join, if_neg hhead, if_neg hbase, PathText.components,
    List.splitOn_append_cons_self, List.splitOn_eq_singleton h.noSlash, List.foldl_append,
    List.foldl_cons, List.foldl_nil, walkPart_of_isComponent h, PathText.components]

theorem getLast?_join {base name : PathText} (h : IsComponent name)
    (hbase : base.getLast? ≠ some '/') : (base.join name).getLast? ≠ some '/' := by
  have hhead : name.head? ≠ some '/' := by
    intro hslash
    exact h.noSlash (List.mem_of_head? hslash)
  rw [PathText.join, if_neg hhead, if_neg hbase]
  intro hlast
  obtain ⟨c, rest, rfl⟩ := List.exists_cons_of_ne_nil h.nonempty
  have hmem : (base ++ '/' :: c :: rest).getLast? = (c :: rest).getLast? := by
    rw [List.getLast?_append, List.getLast?_cons_cons, List.getLast?_cons, Option.some_or]
  rw [hmem] at hlast
  exact h.noSlash (List.mem_of_getLast? hlast)

end Linhello.Common
