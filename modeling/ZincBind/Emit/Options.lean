import ZincBind.Bytes

/-!
# ZincBind.Emit.Options

What the generated Rust code takes from the user.
-/

namespace ZincBind

/-- The adjustable parts of generated files. -/
structure Options where
  /-- The module that hosts the FlatZinc layer. -/
  crate : Bytes
  /-- The attribute put on every generated type. -/
  derive : Bytes
  /-- The type of the model argument of `try_from_item`. -/
  modelParam : Bytes
deriving DecidableEq, Repr

/-- The options used when nothing is said. -/
def Options.standard : Options where
  crate := utf8 "crate::fzn"
  derive := utf8 "#[derive(Clone, Debug)]"
  modelParam := utf8 "&mut Model"

end ZincBind
