import SymbolView.Host.Kind

/-!
# Modifiers

A declaration has one modifier for its visibility and may have one for its modality.  Visibilities
for which there is no modifier count as public.
-/

set_option autoImplicit false

namespace SymbolView

/-- A modifier of a declaration. -/
inductive Modifier where
  | publicAccess
  | privateAccess
  | internalAccess
  | protectedAccess
  | isFinal
  | isAbstract
  | isOpen
  | isSealed
deriving DecidableEq

namespace Modifier

/-- The word for a modifier. -/
def label : Modifier → String
  | publicAccess => "public"
  | privateAccess => "private"
  | internalAccess => "internal"
  | protectedAccess => "protected"
  | isFinal => "final"
  | isAbstract => "abstract"
  | isOpen => "open"
  | isSealed => "sealed"

/-- The modifier of a visibility. -/
def ofVisibility : Visibility → Modifier
  | .publicAccess => publicAccess
  | .privateAccess => privateAccess
  | .internalAccess => internalAccess
  | .protectedAccess => protectedAccess
  | .localAccess => publicAccess
  | .packageAccess => publicAccess

/-- The modifier of a modality. -/
def ofModality : Modality → Modifier
  | .isFinal => isFinal
  | .isAbstract => isAbstract
  | .isOpen => isOpen
  | .isSealed => isSealed

end Modifier
end SymbolView
