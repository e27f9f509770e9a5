import Concordance.Tokenizer.Basic

/-! Texts cut into occurrences. -/

namespace Concordance

namespace Text

def withoutByteOrderMark (s : String) : String :=
  match s.toList with
  | '\ufeff' :: rest => String.ofList rest
  | _ => s

/-- The text of a file in UTF-8, one byte order mark dropped; none if the bytes are not UTF-8. -/
def ofBytes? (bytes : ByteArray) : Option String :=
  (String.fromUTF8? bytes).map withoutByteOrderMark

end Text

structure TokenSequence where
  text : String
  occurrences : List Occurrence
  deriving DecidableEq, Repr

namespace TokenSequence

def size (s : TokenSequence) : Nat := s.occurrences.length

def forms (s : TokenSequence) : List String := s.occurrences.map Occurrence.orth

def spans (s : TokenSequence) : List (Int × Int) := s.occurrences.map fun o => (o.start, o.stop)

def display (s : TokenSequence) : String :=
  " ".intercalate (s.occurrences.map Occurrence.display)

def ofText (text : String) (start : Int) (stop : Option Int) (options : Tokenizer.Options) :
    TokenSequence :=
  ⟨text, (Tokenizer.ofText text.toList start stop options).occurrences⟩

def ofBytes? (bytes : ByteArray) (options : Tokenizer.Options) : Option TokenSequence :=
  (Text.ofBytes? bytes).map fun text => ofText text 0 none options

end TokenSequence
end Concordance
