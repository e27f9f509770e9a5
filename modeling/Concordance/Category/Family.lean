import Concordance.Category.Basic

/-! The families of categories. -/

namespace Concordance.Category

inductive Family
  | verb | noun | adjective | adverb | preposition | determiner | pronoun | conjunction | number
  | properName | punctuation | miscellaneous
  deriving DecidableEq, Repr

namespace Family

def all : List Family :=
  [verb, noun, adjective, adverb, preposition, determiner, pronoun, conjunction, number, properName,
    punctuation, miscellaneous]

def nibble : Family → Int
  | verb => 0x1
  | noun => 0x2
  | adjective => 0x3
  | adverb => 0x4
  | preposition => 0x5
  | determiner => 0x6
  | pronoun => 0x7
  | conjunction => 0x8
  | number => 0x9
  | properName => 0xb
  | punctuation => 0xc
  | miscellaneous => 0xf

end Family

/-- The determiner that counts (three cats). -/
def numeral : Category := 0x63

def isIn (c : Category) (family : Family) : Bool :=
  c / 16 == family.nibble || (family == .number && c == numeral)

def families (c : Category) : List Family := Family.all.filter c.isIn

end Concordance.Category
