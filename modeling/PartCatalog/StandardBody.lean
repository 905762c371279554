/-
# Standard bodies -- who issues a standard

A class name belongs to the body whose label it begins with. Some labels begin with
others; those come first in `all`, so the first body that fits has the longest
label.
-/
set_option autoImplicit false

namespace PartCatalog

/-- A body, or several bodies that issue a standard together. -/
inductive StandardBody where
  | dinEnIso
  | dinEn
  | dinIso
  | din
  | en
  | iso
  | ansi
  | asme
deriving DecidableEq, Repr

namespace StandardBody

/-- How the names of its standards begin. -/
def label : StandardBody → String
  | .dinEnIso => "DINENISO"
  | .dinEn => "DINEN"
  | .dinIso => "DINISO"
  | .din => "DIN"
  | .en => "EN"
  | .iso => "ISO"
  | .ansi => "ANSI"
  | .asme => "ASME"

/-- Every body, those of longer labels before those their labels begin with. -/
def all : List StandardBody := [.dinEnIso, .dinEn, .dinIso, .din, .en, .iso, .ansi, .asme]

/-- The body with a label. -/
def ofLabel? (s : String) : Option StandardBody := all.find? (·.label = s)

/-- Whether a name begins with the label. -/
def issues (body : StandardBody) (name : String) : Bool :=
  body.label.toList.isPrefixOf name.toList

/-- The body that a name belongs to. -/
def ofName? (name : String) : Option StandardBody := all.find? (·.issues name)

end StandardBody

end PartCatalog
