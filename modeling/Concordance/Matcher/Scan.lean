import Concordance.Hit.Basic
import Concordance.Matcher.Basic

/-! Scanning a stream for all hits of a pattern. -/

namespace Concordance

namespace Matcher

def hit (m : Matcher) (stop : Nat) (name : Option String) (source : Option Source) : Hit :=
  ⟨m.found, (stop : Int) - m.found.length, stop, name, source⟩

/-- The hits in the rest of a stream that starts at an index, and the matcher behind it. With a
limit, the rest is left alone once there are that many. -/
def scanFrom (p : Pattern) (name : Option String) (source : Option Source) (limit : Option Nat)
    (index : Nat) (m : Matcher) : List Occurrence → List Hit × Matcher
  | [] => ([], m)
  | o :: rest =>
    match step p m o with
    | (false, m) => scanFrom p name source limit (index + 1) m rest
    | (true, m) =>
      let hit := m.hit (index + 1) name source
      if limit.any (· ≤ 1) then ([hit], m)
      else
        let (hits, last) := scanFrom p name source (limit.map (· - 1)) (index + 1) m rest
        (hit :: hits, last)

def scan (p : Pattern) (m : Matcher) (stream : List Occurrence) (name : Option String)
    (source : Option Source) (limit : Option Nat) : List Hit × Matcher :=
  scanFrom p name source limit 0 m.reset stream

end Matcher

def Pattern.hits (p : Pattern) (stream : List Occurrence) (name : Option String)
    (source : Option Source) : List Hit :=
  (Matcher.fresh.scan p stream name source none).1

def Pattern.firstHit? (p : Pattern) (stream : List Occurrence) (name : Option String)
    (source : Option Source) : Option Hit :=
  (Matcher.fresh.scan p stream name source (some 1)).1.head?

end Concordance
