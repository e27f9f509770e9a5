/-! Morphosyntactic categories of French. A category is a code whose low byte holds the part of
speech: the high nibble names a family, the low nibble refines it, and the code with low nibble zero
stands for the family as a whole. Codes 0 (nothing known) and 1 (known to be unresolved) belong to
no family. -/

namespace Concordance

/-- A category code. The defined codes fit a byte; any integer is allowed as a code. -/
abbrev Category := Int

namespace Category

/-- Nothing is known. -/
def null : Category := 0

/-- Known to be unresolved. -/
def unknown : Category := 1

def table : List (String × Category) := [
  ("NULL", 0x00), ("UNKNOWN", 0x01), ("VERB", 0x10), ("VERBaux", 0x11), ("VERBppass", 0x12),
  ("VERBppres", 0x13), ("VERBsup", 0x15), ("VERBloc", 0x1f), ("SUB", 0x20), ("SUBm", 0x21),
  ("SUBf", 0x22), ("SUBtit", 0x28), ("SUBloc", 0x2f), ("ADJ", 0x30), ("ADJloc", 0x3f),
  ("ADV", 0x40), ("ADVneg", 0x41), ("ADVplace", 0x42), ("ADVtemp", 0x43), ("ADVquant", 0x44),
  ("ADVindef", 0x4a), ("ADVinter", 0x4b), ("ADVloc", 0x4f), ("PREP", 0x50), ("PREPloc", 0x5f),
  ("DET", 0x60), ("DETart", 0x61), ("DETprep", 0x62), ("DETnum", 0x63), ("DETindef", 0x6a),
  ("DETinter", 0x6b), ("DETdem", 0x6c), ("DETposs", 0x6d), ("PRO", 0x70), ("PROpers", 0x71),
  ("PROrel", 0x72), ("PROindef", 0x7a), ("PROint", 0x7b), ("PROdem", 0x7c), ("PROposs", 0x7d),
  ("CONJ", 0x80), ("CONJcoord", 0x81), ("CONJsubord", 0x82), ("NUM", 0x90), ("NUMcard", 0x91),
  ("NUMord", 0x92), ("NUMunit", 0x93), ("NAME", 0xb0), ("NAMEpers", 0xb1), ("NAMEpersm", 0xb2),
  ("NAMEpersf", 0xb3), ("NAMEplace", 0xb4), ("NAMEorg", 0xb5), ("NAMEpeople", 0xb6),
  ("NAMEevent", 0xb7), ("NAMEauthor", 0xb8), ("NAMEfict", 0xb9), ("NAMEtitle", 0xba),
  ("NAMEanimal", 0xbd), ("NAMEdemhum", 0xbe), ("NAMEgod", 0xbf), ("PUN", 0xc0), ("PUNsent", 0xc1),
  ("PUNcl", 0xc2), ("PUNdiv", 0xc3), ("MISC", 0xf0), ("ABBR", 0xf1), ("EXCL", 0xf2),
  ("MATH", 0xf4), ("REF", 0xf5), ("PARTdem", 0xfc), ("TEST", 0xff)]

def ofName? (name : String) : Option Category := table.lookup name

def ofName (name : String) : Category := (ofName? name).getD unknown

def isKnown (name : String) : Bool := (ofName? name).isSome

def byte (c : Category) : Nat := (c % 256).toNat

/-- The name of a code, by its low byte: empty for 0, and that of the unresolved code for one that
the table does not hold. -/
def label (c : Category) : String :=
  if c % 256 = 0 then ""
  else ((table.find? fun entry => entry.2 == c % 256).map Prod.fst).getD "UNKNOWN"

def family (c : Category) : Category := 16 * (c % 256 / 16)

def isFamilyMarker (c : Category) : Bool := c != null && c != unknown && c % 16 == 0

end Category
end Concordance
