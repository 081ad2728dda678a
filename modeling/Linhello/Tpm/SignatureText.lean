import Linhello.Tpm.Recovery
import Linhello.Tpm.Simulated
/-!
# Reading a signature file

`parse_signatures` on the text of a file. It slices the policy digest of an entry by byte
offsets, which panics where a slice cuts a character; a reader of the result never sees that.
-/

namespace Linhello.Tpm

open Common Effect Host

section Parsed

variable (P : Platform)

variable {P} {e : RawEntry} {es : List RawEntry} {fromJson : String → Except String Banks}
  {text bank : String} {raw : Banks}

/-- An entry whose digest and signature can both be read. -/
def Readable (P : Platform) (e : RawEntry) : Prop :=
  laxPairs e.pol.toList = true ∧ ∃ sig, P.decode e.sig = .ok sig

end Parsed

end Linhello.Tpm
