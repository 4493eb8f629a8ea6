/-!
# Jaro similarity

The Jaro similarity of two texts is a number in `[0, 1]` that is high when they share many
characters in nearly the same order. A character of the first text matches an equal,
unmatched character of the second that stands at most half the longer length, less one,
away; with `m` matches and `t` half the number of matched pairs that are out of order, the
similarity is the mean of `m / |a|`, `m / |b|` and `(m - t) / m`, and zero without matches.

It ranks the names a mistyped name was likely meant to be.
-/

namespace QueryAdvisor

/-- Matches the characters of `a`, in order, against those of `b`: for each character of `a`
whether it matched, and for each of `b` whether it was taken. -/
def jaroMatches (a b : List Char) (range : Nat) : List Bool × Array Bool :=
  let step (acc : List Bool × Array Bool) (ci : Char × Nat) : List Bool × Array Bool :=
    let (c, i) := ci
    let lo := i - range
    let hi := min b.length (i + range + 1)
    match (List.range hi).find? (fun j => lo ≤ j && b[j]? == some c && !acc.2.getD j false) with
    | some j => (true :: acc.1, acc.2.setIfInBounds j true)
    | none => (false :: acc.1, acc.2)
  let (marks, taken) := a.zipIdx.foldl step ([], Array.replicate b.length false)
  (marks.reverse, taken)

/-- The Jaro similarity of two texts. -/
def jaro (s t : String) : Float :=
  let a := s.toList
  let b := t.toList
  if a.isEmpty && b.isEmpty then 1
  else if a.isEmpty || b.isEmpty then 0
  else
    let (marks, taken) := jaroMatches a b (max a.length b.length / 2 - 1)
    let fromA := (a.zip marks).filterMap (fun (c, m) => if m then some c else none)
    let fromB := (b.zip taken.toList).filterMap (fun (c, m) => if m then some c else none)
    let m := fromA.length
    let t := ((fromA.zip fromB).filter (fun (x, y) => x != y)).length / 2
    if m = 0 then 0
    else (m.toFloat / a.length.toFloat + m.toFloat / b.length.toFloat + (m - t).toFloat / m.toFloat) / 3

/-- Of the candidates more than 0.7 similar to a text, the most similar one, the last of
equals. -/
def closestName (s : String) (candidates : List String) : Option String :=
  (candidates.foldl (fun (best : Option (Float × String)) c =>
    let score := jaro s c
    if score > 0.7 then
      match best with
      | some (b, _) => if score < b then best else some (score, c)
      | none => some (score, c)
    else best) none).map (·.2)

end QueryAdvisor
