import Linhello.Common.ConfigLaw
import Linhello.Liveness.DevicePaths
/-!
# Camera discovery and selection

The video nodes of a machine by the pixel formats they offer, the device that is resolved
for each camera, and `cameras.conf`, in which the operator's choice is kept.
-/

namespace Linhello.Biometrics.Camera

open Common Common.Conf Effect Liveness

def DEFAULT_DEVICE : String := "/dev/video0"

def DEFAULT_IR_DEVICE : String := "/dev/video2"

/-! ## Discovery -/

inductive CameraKind
  /-- Colour-capable. -/
  | rgb
  /-- Greyscale-only. -/
  | ir
  | unknown
  deriving DecidableEq

structure CameraInfo where
  path : String
  name : Option String
  kind : CameraKind
  fourccs : List String
  trusted : Bool
  privacy : Option Bool
  deriving DecidableEq

/-- What opening a node shows: the privacy switch, and the formats if they can be listed. -/
structure Opened where
  privacy : Option Bool
  formats : Option (List Bytes)

/-- A node as `enum_devices` lists it; a path that is not UTF-8 is `none`. -/
structure VideoNode where
  path : Option String
  name : Option String
  opened : Option Opened

def isColor (f : String) : Bool :=
  ["MJPG", "YUYV", "YUY2", "RGB3", "BGR3", "NV12", "YU12", "UYVY", "H264"].contains f

def isGrey (f : String) : Bool := ["GREY", "Y8", "Y16", "Y10", "Y12", "GREZ"].contains f

def classifyFourccs (fourccs : List String) : CameraKind :=
  match fourccs.any isColor, fourccs.any isGrey with
  | true, _ => .rgb
  | false, true => .ir
  | false, false => .unknown

/-- `trim_end_matches(['\0', ' '])` on the four characters. -/
def fourccStr (repr : Bytes) : String :=
  String.ofList (((ofUtf8 repr).getD "?").toList.reverse.dropWhile fun c =>
    c = Char.ofNat 0 || c = ' ').reverse

def classifyDevice (node : VideoNode) : CameraKind × List String × Option Bool :=
  match node.opened with
  | none => (.unknown, [], none)
  | some dev =>
      match dev.formats with
      | none => (.unknown, [], dev.privacy)
      | some formats =>
          let fourccs := formats.map fourccStr
          (classifyFourccs fourccs, fourccs, dev.privacy)

/-! ## Resolution -/

/-- What the resolution of the cameras depends on. -/
structure Machine where
  nodes : List VideoNode
  /-- The enumeration ends before `ENUMERATE_TIMEOUT`. -/
  inTime : Bool
  tree : FileTree
  env : String → Option String
  camerasConf : File

def cameraInfo (t : FileTree) (node : VideoNode) : Option CameraInfo := do
  let path ← node.path
  let (kind, fourccs, privacy) := classifyDevice node
  pure { path := path, name := node.name, kind := kind, fourccs := fourccs,
         trusted := 0 < (trustIn t path).score, privacy := privacy }

variable (m : Machine)

def enumerateBlocking : List CameraInfo := m.nodes.filterMap (cameraInfo m.tree)

def enumerate : List CameraInfo := if m.inTime then enumerateBlocking m else []

def envDevice (var : String) : Option String := (m.env var).filter fun s => s ≠ ""

def ifExists (path : String) : Option String := if m.tree.pathExists path then some path else none

def confDevice (key : String) : Option String := readBack key m.camerasConf

def resolveRgb : String :=
  match envDevice m "LINHELLO_RGB_DEVICE" with
  | some p => p
  | none =>
      match confDevice m "rgb" with
      | some p => p
      | none =>
          match (enumerate m).find? fun c => c.kind = .rgb && c.trusted with
          | some c => c.path
          | none => DEFAULT_DEVICE

def resolveIr : Option String :=
  match envDevice m "LINHELLO_IR_DEVICE" with
  | some p => ifExists m p
  | none =>
      match confDevice m "ir" with
      | some p => ifExists m p
      | none =>
          -- whether the node is trusted is not asked
          match (enumerate m).find? fun c => c.kind = .ir with
          | some c => some c.path
          | none => ifExists m DEFAULT_IR_DEVICE

variable {m}

theorem mem_enumerateBlocking_of_enumerate {c : CameraInfo} (h : c ∈ enumerate m) :
    c ∈ enumerateBlocking m := by
  unfold enumerate at h
  split at h
  · exact h
  · exact nomatch h

theorem trusted_of_mem {c : CameraInfo} (h : c ∈ enumerateBlocking m) :
    c.trusted = decide (0 < (trustIn m.tree c.path).score) := by
  obtain ⟨node, -, hnode⟩ := List.mem_filterMap.1 h
  unfold cameraInfo at hnode
  obtain ⟨path, -, hinfo⟩ := Option.bind_eq_some_iff.1 hnode
  rw [← Option.some.inj hinfo]

theorem ifExists_eq_some {p q : String} :
    ifExists m p = some q ↔ m.tree.pathExists p = true ∧ p = q := by
  unfold ifExists
  by_cases hexists : m.tree.pathExists p = true
  · rw [if_pos hexists, Option.some.injEq]
    exact ⟨fun heq => ⟨hexists, heq⟩, And.right⟩
  · rw [if_neg hexists]
    exact ⟨nofun, fun h => absurd h.1 hexists⟩

/-! ## The operator's choice -/

/-- `map_err` on the result of a write. -/
def orWriting (p : Fallible Unit) : Fallible Unit :=
  ExceptT.mk
    (Except.mapError (fun e => .biometrics ("writing cameras.conf: " ++ e.display)) <$> p.run)

/-- `write_cameras_conf`. -/
def writeCamerasConf (rgb : String) (ir : Option String) : Fallible Unit := do
  orWriting (writeKv "rgb" rgb)
  match ir with
  | some ir => orWriting (writeKv "ir" ir)
  | none => pure ()

section Written

variable {key val other rgb : String} {ir : Option String} {f f' : File}

theorem exec_orWriting_ok {p : Fallible Unit} :
    Exec (Step False) (orWriting p).run f (.ok ()) f' ↔ Exec (Step False) p.run f (.ok ()) f' := by
  have hrun : (orWriting p).run = Except.mapError
    (fun e => LinuxHelloError.biometrics ("writing cameras.conf: " ++ e.display)) <$> p.run := rfl
  rw [hrun, exec_map]
  constructor
  · rintro ⟨r, hexec, heq⟩
    cases r with
    | ok u => exact hexec
    | error e => exact nomatch heq
  · intro hexec
    exact ⟨_, hexec, rfl⟩

theorem kvLookup_contentOf (key : String) (f : File) :
    kvLookup key (unwrapOrDefault (contentOf f)) = readBack key f := by
  unfold readBack
  cases contentOf f with
  | ok text => rfl
  | error e => rfl

theorem readBack_of_writeKv (hkey : IsKey key) (hval : '\n' ∉ val.toList)
    (h : Exec (Step False) (writeKv key val).run f (.ok ()) f') :
    readBack key f' = if trim val = "" then none else some (trim val) := by
  rw [file_of_writeKv h, readBack_utf8, kvLookup_rewriteText hkey hval]

theorem readBack_of_writeKv_of_ne (hkey : IsKey key) (hval : '\n' ∉ val.toList) (hne : other ≠ key)
    (h : Exec (Step False) (writeKv key val).run f (.ok ()) f') :
    readBack other f' = readBack other f := by
  rw [file_of_writeKv h, readBack_utf8, kvLookup_rewriteText_of_ne hkey hval _ hne,
    kvLookup_contentOf]

theorem isKey_rgb : IsKey "rgb" := ⟨by decide, by decide +kernel, by decide, by decide, by decide⟩

/-- The file after `write_cameras_conf` gives the choice back, and the rest as before. -/
structure Chosen (rgb : String) (ir : Option String) (f f' : File) : Prop where
  rgb : readBack "rgb" f' = some rgb
  ir : readBack "ir" f' = ir
  others : ∀ other, other ≠ "rgb" → other ≠ "ir" → readBack other f' = readBack other f

/-- A value that `read_kv` gives back as it was written. -/
def Plain (val : String) : Prop := val ≠ "" ∧ trim val = val

theorem read_eq_some_iff : (if trim val = "" then none else some (trim val)) = some val ↔
    Plain val := by
  unfold Plain
  by_cases hblank : trim val = ""
  · rw [if_pos hblank]
    constructor
    · exact nofun
    · intro h
      exact absurd (h.2.symm.trans hblank) h.1
  · rw [if_neg hblank, Option.some.injEq]
    constructor
    · intro heq
      refine ⟨?_, heq⟩
      intro hempty
      rw [heq] at hblank
      exact hblank hempty
    · exact And.right

/-- What is read back is the choice if and only if the chosen paths have no white space around
them and are not empty, and where no IR camera was chosen none was pinned before. -/
theorem write_cameras_conf_iff (hrgb : '\n' ∉ rgb.toList)
    (hir : ∀ p, ir = some p → '\n' ∉ p.toList)
    (h : Exec (Step False) (writeCamerasConf rgb ir).run f (.ok ()) f') :
    Chosen rgb ir f f' ↔ Plain rgb ∧
      match ir with
      | some p => Plain p
      | none => readBack "ir" f = none := by
  unfold writeCamerasConf at h
  obtain ⟨u, v, hfirst, hrest⟩ := exec_exceptT_bind_ok.1 h
  rw [exec_orWriting_ok] at hfirst
  have hread := readBack_of_writeKv isKey_rgb hrgb hfirst
  have hkept : ∀ other, other ≠ "rgb" → readBack other v = readBack other f :=
    fun other hne => readBack_of_writeKv_of_ne isKey_rgb hrgb hne hfirst
  cases ir with
  | none =>
      obtain ⟨-, rfl⟩ := hrest
      have hpin := hkept "ir" (by decide)
      constructor
      · intro hchosen
        refine ⟨read_eq_some_iff.1 (hread.symm.trans hchosen.rgb), ?_⟩
        exact hpin.symm.trans hchosen.ir
      · rintro ⟨hplain, hnone⟩
        constructor
        · exact hread.trans (read_eq_some_iff.2 hplain)
        · exact hpin.trans hnone
        · exact fun other hne _ => hkept other hne
  | some p =>
      rw [exec_orWriting_ok] at hrest
      have hline := hir p rfl
      have hpin := readBack_of_writeKv isKey_ir hline hrest
      have hlater : ∀ other, other ≠ "ir" → readBack other f' = readBack other v :=
        fun other hne => readBack_of_writeKv_of_ne isKey_ir hline hne hrest
      have hfirst' := (hlater "rgb" (by decide)).trans hread
      constructor
      · intro hchosen
        refine ⟨read_eq_some_iff.1 (hfirst'.symm.trans hchosen.rgb), ?_⟩
        exact read_eq_some_iff.1 (hpin.symm.trans hchosen.ir)
      · rintro ⟨hplain, hplain'⟩
        constructor
        · exact hfirst'.trans (read_eq_some_iff.2 hplain)
        · exact hpin.trans (read_eq_some_iff.2 hplain')
        · exact fun other hne hne' => (hlater other hne').trans (hkept other hne)

end Written

theorem exists_writeCamerasConf (rgb : String) (ir : Option String) (f : File) :
    ∃ f', Exec (Step False) (writeCamerasConf rgb ir).run f (.ok ()) f' := by
  have hfirst := exec_orWriting_ok.2 (exec_writeKv "rgb" rgb f)
  cases ir with
  | none => exact ⟨_, exec_exceptT_bind_ok.2 ⟨(), _, hfirst, rfl, rfl⟩⟩
  | some p =>
      have hrest := exec_orWriting_ok.2 (exec_writeKv "ir" p
        (some (utf8 (rewriteText "rgb" rgb (unwrapOrDefault (contentOf f))))))
      exact ⟨_, exec_exceptT_bind_ok.2 ⟨(), _, hfirst, hrest⟩⟩

/-- Both cameras are chosen anew. -/
theorem write_cameras_conf_iff_both : ∃ f',
    Chosen "/dev/video4" (some "/dev/video6") (some (utf8 "# cameras\nir=/dev/video2\n")) f' := by
  obtain ⟨f', hrun⟩ := exists_writeCamerasConf "/dev/video4" (some "/dev/video6")
    (some (utf8 "# cameras\nir=/dev/video2\n"))
  have hline : ∀ p, some "/dev/video6" = some p → '\n' ∉ p.toList := by
    intro p hp
    rw [← Option.some.inj hp]
    decide
  refine ⟨f', (write_cameras_conf_iff (by decide) hline hrun).2 ⟨⟨by decide, ?_⟩, by decide, ?_⟩⟩
  · decide +kernel
  · decide +kernel

/-- Choosing no IR camera leaves the pin that was there. -/
theorem not_write_cameras_conf : ¬ ∀ (rgb : String) (ir : Option String) (f f' : File),
    '\n' ∉ rgb.toList → (∀ p, ir = some p → '\n' ∉ p.toList) →
    Exec (Step False) (writeCamerasConf rgb ir).run f (.ok ()) f' → Chosen rgb ir f f' := by
  intro hall
  obtain ⟨f', hrun⟩ := exists_writeCamerasConf "/dev/video0" none (some (utf8 "ir=/dev/video2\n"))
  have hline : ∀ p, (none : Option String) = some p → '\n' ∉ p.toList := nofun
  have hrgb : '\n' ∉ "/dev/video0".toList := by decide
  have hchosen := hall _ _ _ f' hrgb hline hrun
  have hnone := ((write_cameras_conf_iff hrgb hline hrun).1 hchosen).2
  have hpin : readBack "ir" (some (utf8 "ir=/dev/video2\n")) = none := hnone
  rw [readBack_utf8] at hpin
  revert hpin
  decide +kernel

end Linhello.Biometrics.Camera
