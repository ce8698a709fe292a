import LicenseHeaders.Text.Basic

/-!
# Header sets

A header set is an ordered list of texts, exactly as they were read.  The first
is canonical: the text every file should contain.  The others are legacy
variants that synchronizing retires and removing strips.
-/

namespace LicenseHeaders

/-- Header texts, the canonical one first. -/
structure HeaderSet where
  texts : List Text
  deriving DecidableEq, Repr

namespace HeaderSet

/-- The text every file should contain. -/
def canonical? (h : HeaderSet) : Option Text := h.texts.head?

/-- The retired texts, in the order in which they were given. -/
def legacy (h : HeaderSet) : List Text := h.texts.tail

def isEmpty (h : HeaderSet) : Bool := h.texts.isEmpty

end HeaderSet

end LicenseHeaders
