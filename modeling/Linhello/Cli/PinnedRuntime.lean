import Linhello.Cli.PinnedDownloads
/-!
# The pinned runtime

The library that is installed comes out of the archive whose digest is pinned,
`runtime_pinned`. It is looked for by its name, so the directory it is unpacked into has to
be new.
-/

namespace Linhello.Cli.Downloads

open Common Effect

variable {E : Env} {w v w' : Files} {tmp : String}

/-- The bytes are those of a file in the archive that is pinned for the architecture. -/
def FromArchive (E : Env) (arch : String) (bytes : Bytes) : Prop :=
  ∃ asset sha archive name, ortAsset arch = some (asset, sha) ∧ E.sha256 archive = sha ∧
    (name, bytes) ∈ E.unpack archive

def LINKS : List String :=
  ["/usr/local/lib/libonnxruntime.so.1", "/usr/local/lib/libonnxruntime.so"]

/-- What a fetch of the runtime leaves outside of the temporary directory. -/
structure Runtime (E : Env) (arch tmp : String) (w w' : Files) : Prop where
  other : ∀ q, ¬ Under tmp q → q ≠ DYLIB → q ∉ LINKS → w' q = w q
  dylib : w' DYLIB = w DYLIB ∨
    ∃ bytes part, FromArchive E arch bytes ∧ part <+: bytes ∧ w' DYLIB = some part

theorem Runtime.same (E : Env) (arch tmp : String) (w : Files) : Runtime E arch tmp w w :=
  ⟨fun _ _ _ _ => rfl, .inl rfl⟩

end Linhello.Cli.Downloads
