import Phrasebook.Banner

/-!
How a script file is wrapped.
-/

namespace Phrasebook

/-- The choices of a caller: whether the expression is the default export of the file, and the
comment at its top. -/
structure Options where
  defaultExport : Bool := false
  banner : Option String := none
  deriving DecidableEq, Repr

/-- The comment lines at the top of the file. -/
def Options.bannerLines (options : Options) : List String := Banner.lines (options.banner.getD "")

end Phrasebook
