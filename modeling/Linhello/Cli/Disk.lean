import Linhello.Cli.Pamwire
import Linhello.Cli.Machine
/-!
# Files and links

The files of a machine, with symbolic links, and what the operations of the command line
tool do to them. Every read, write and removal may fail.
-/

namespace Linhello.Cli

open Common Effect Machine Pamwire

/-! ## Contents -/

/-- The text of a file, or its bytes where they are not UTF-8. -/
inductive Content
  | text (s : String)
  | bytes (b : List UInt8)

/-- The bytes up to the first newline, and whatever follows it. -/
def byteLines (cur : List UInt8) : List UInt8 → List (List UInt8)
  | [] => [cur.reverse]
  | b :: rest => if b = 10 then cur.reverse :: byteLines [] rest else byteLines (b :: cur) rest

def isBlankByte (b : UInt8) : Bool := b = 32 || (9 ≤ b && b ≤ 13)

def moduleBytes : List UInt8 := MODULE.toList.map fun c => c.toNat.toUInt8

/-- A line of bytes that is no comment and names the module. -/
def activeBytes (line : List UInt8) : Bool :=
  let t := line.dropWhile isBlankByte
  t.head? != some 35 && decide (moduleBytes <:+: t)

def Content.refers : Content → Bool
  | .text s => contentHasModule s
  | .bytes b => (byteLines [] b).any activeBytes

/-! ## The disk -/

inductive Node
  | file (c : Content)
  | link (target : OsPath)
  | dir

structure Disk where
  node : OsPath → Option Node

namespace Disk

/-- Follow at most `n` links. -/
def follow (d : Disk) : Nat → OsPath → Option OsPath
  | 0, _ => none
  | n + 1, p =>
      match d.node p with
      | some (.link target) => d.follow n target
      | _ => some p

/-- The path a path leads to; the kernel follows 40 links. -/
def resolve (d : Disk) (p : OsPath) : Option OsPath := d.follow 41 p

def contentAt (d : Disk) (q : OsPath) : Option Content :=
  match d.node q with
  | some (.file c) => some c
  | _ => none

def content (d : Disk) (p : OsPath) : Option Content := (d.resolve p).bind d.contentAt

def put (d : Disk) (q : OsPath) (n : Option Node) : Disk := ⟨Function.update d.node q n⟩

/-- The nodes of `d'` are those of `d`, but for some that are gone. -/
def Shrinks (d d' : Disk) : Prop := ∀ q, d'.node q = d.node q ∨ d'.node q = none

/-- A write through `p` of what the contents `ok` allow. -/
def Wrote (d : Disk) (p : OsPath) (ok : Content → Prop) (d' : Disk) : Prop :=
  ∃ q c, d.resolve p = some q ∧ ok c ∧ d' = d.put q (some (.file c))

/-- What the operations can answer, and what they do. A command for the login stacks may
render them anew; a package manager removes files. -/
def allows : Semantics machine Disk
  | d, .distroFamily, _, d' => d' = d
  | d, .pathExists p, r, d' => d' = d ∧ (r = true → ∃ q, d.resolve p = some q ∧ (d.node q).isSome)
  | d, .isFile p, r, d' => d' = d ∧ (r = true → (d.content p).isSome)
  | d, .isDir _, _, d' => d' = d
  | d, .readDir dir, r, d' =>
      d' = d ∧ ∀ l name, r = some l → some name ∈ l → (d.node (OsPath.join dir name)).isSome
  | d, .readToString p, r, d' => d' = d ∧ ∀ s, r = .ok s → d.content p = some (.text s)
  | d, .write p s, .ok _, d' => d.Wrote p (· = .text s) d'
  | d, .write p s, .error _, d' =>
      d' = d ∨ d.Wrote p (fun c => ∃ t : String, t.toList <+: s.toList ∧ c = .text t) d'
  | d, .copy a b, .ok _, d' => d.Wrote b (fun c => d.content a = some c) d'
  | d, .copy _ b, .error _, d' => d' = d ∨ d.Wrote b (fun _ => True) d'
  | d, .rename a b, .ok _, d' => d' = (d.put b (d.node a)).put a none
  | d, .rename _ _, .error _, d' => d' = d
  | d, .copyPermissions _ _, _, d' => d' = d
  | d, .removeFile p, .ok _, d' => d' = d.put p none
  | d, .removeFile _, .error _, d' => d' = d
  | d, .removeDir _, _, d' => d.Shrinks d'
  | d, .removeDirAll _, _, d' => d.Shrinks d'
  | d, .createDirAll _, _, d' => ∀ q, d'.node q = d.node q ∨
    (d.node q = none ∧ d'.node q = some .dir)
  | _, .run _ _, _, _ => True
  | d, .runCapture _ _, _, d' => d' = d
  | d, .status _ _, _, d' => d' = d
  | d, .output _ _, _, d' => d.Shrinks d'

/-! ## Contents after a step -/

variable {d d' : Disk} {p q : OsPath} {c : Content} {n : Nat}

theorem node_put_self (d : Disk) (q : OsPath) (m : Option Node) : (d.put q m).node q = m :=
  Function.update_self _ _ _

theorem node_put_of_ne (h : p ≠ q) (m : Option Node) : (d.put q m).node p = d.node p :=
  Function.update_of_ne h _ _

theorem follow_ne_link {target : OsPath} (h : d.follow n p = some q) :
    d.node q ≠ some (.link target) := by
  induction n generalizing p with
  | zero => exact absurd h (Option.some_ne_none q).symm
  | succ n ih =>
      rw [follow] at h
      split at h
      · exact ih h
      next hnode =>
        rw [← Option.some.inj h]
        exact fun hlink => hnode target hlink

/-- A node that is no link, and is replaced by none, changes no path. -/
theorem follow_put (hq : ∀ target, d.node q ≠ some (.link target)) {m : Option Node}
    (hm : ∀ target, m ≠ some (.link target)) (p : OsPath) :
    (d.put q m).follow n p = d.follow n p := by
  induction n generalizing p with
  | zero => rfl
  | succ n ih =>
      by_cases hp : p = q
      · subst hp
        have hold : d.follow (n + 1) p = some p := by
          rw [follow]
          split
          next target hlink => exact absurd hlink (hq target)
          · rfl
        rw [hold, follow, node_put_self]
        split
        next target => exact absurd rfl (hm target)
        · rfl
      · rw [follow, follow, node_put_of_ne hp]
        split
        · exact ih _
        · rfl

/-- A write changes what the paths hold that lead to the same place. -/
theorem content_put_file (hq : d.resolve p = some q) (p' : OsPath) :
    (d.put q (some (.file c))).content p' = if d.resolve p' = some q then some c
      else d.content p' := by
  have hresolve : (d.put q (some (.file c))).resolve p' = d.resolve p' :=
    follow_put (fun _ => follow_ne_link hq) (fun _ h => Node.noConfusion (Option.some.inj h)) p'
  rw [content, hresolve, content]
  cases hp' : d.resolve p' with
  | none =>
      rw [if_neg (Option.some_ne_none q).symm]
      rfl
  | some q' =>
      rw [Option.bind_some, Option.bind_some]
      by_cases hsame : q' = q
      · rw [hsame, if_pos rfl, contentAt, node_put_self]
      · rw [if_neg (fun h => hsame (Option.some.inj h)), contentAt, node_put_of_ne hsame]
        rfl

private theorem follow_of_shrinks (h : d.Shrinks d') :
    d'.follow n p = d.follow n p ∨ ∃ q, d'.follow n p = some q ∧ d'.node q = none := by
  induction n generalizing p with
  | zero => exact .inl rfl
  | succ n ih =>
      rcases h p with hp | hp
      · rw [follow, follow, hp]
        split
        · exact ih
        · exact .inl rfl
      · refine .inr ⟨p, ?_, hp⟩
        rw [follow, hp]

theorem content_of_shrinks (h : d.Shrinks d') :
    d'.content p = d.content p ∨ d'.content p = none := by
  rcases follow_of_shrinks (n := 41) (p := p) h with hsame | ⟨q, hq, hnode⟩
  · rw [content, content, resolve, resolve, hsame]
    cases d.follow 41 p with
    | none => exact .inl rfl
    | some q =>
        rw [Option.bind_some, Option.bind_some, contentAt, contentAt]
        rcases h q with hq | hq
        · rw [hq]
          exact .inl rfl
        · rw [hq]
          exact .inr rfl
  · right
    rw [content, resolve, hq, Option.bind_some, contentAt, hnode]

theorem shrinks_put_none (d : Disk) (q : OsPath) : d.Shrinks (d.put q none) := by
  intro q'
  by_cases hq : q' = q
  · rw [hq]
    exact .inr (node_put_self d q none)
  · exact .inl (node_put_of_ne hq none)

theorem content_put_none (d : Disk) (p : OsPath) : (d.put p none).content p = none := by
  have hnode := node_put_self d p none
  rw [content, resolve, follow, hnode]
  change contentAt _ p = none
  rw [contentAt, hnode]

end Disk

end Linhello.Cli
