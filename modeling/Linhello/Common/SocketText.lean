import Linhello.Common.JsonCompact
import Linhello.Common.Replies
/-!
# Messages as lines

Every request and response is one line of text.
-/

namespace Linhello.Common.Wire

open JsonCodec

section Codecs

variable {α β : Type} {c : JsonCodec α} {F : FloatText}

end Codecs

section Floats

variable {F : FloatText} (h : ∀ q, '\n' ∉ (F.print q).toList)

include h

end Floats

end Linhello.Common.Wire
