import QueryAdvisor.Predicate.Basic
/-!
# Estimated selectivity

The selectivity of a predicate is the share of rows it is expected to keep, from its shape
alone: equality keeps a tenth, inequality nine tenths, a range bound or `BETWEEN` three
tenths, a null check a tenth. A negated list or pattern keeps nine tenths. A list keeps one
hundredth per value, at most a half. A pattern without wildcards keeps a tenth, one that starts
with a wildcard seven tenths, any other three tenths. Connectives, sub-selects and fragments
keep a half.

A priority grades a selectivity: below a tenth is high, below three tenths medium, all else
low.
-/

namespace QueryAdvisor

/-- Clamps to `[0, 1]`; a value that is no number stays so. -/
def clampUnit (x : Float) : Float :=
  if x < 0 then 0 else if x > 1 then 1 else x

/-- Whether a character is a pattern wildcard. -/
def isWildcard (c : Char) : Bool := c = '%' || c = '_'

/-- The selectivity of a pattern. -/
def patternSelectivity (pattern : String) : Float :=
  if !pattern.toList.any isWildcard then 0.1
  else if (pattern.toList.head?.map isWildcard).getD false then 0.7
  else 0.3

/-- The estimated share of rows a predicate keeps. -/
def Predicate.selectivity : Predicate → Float
  | .comparison _ op _ =>
    match op with
    | .eq => 0.1
    | .notEq => 0.9
    | _ => 0.3
  | .inList _ values negated =>
    if negated then 0.9
    else
      let share := values.length.toFloat / 100.0
      if share < 0.5 then share else 0.5
  | .between _ _ _ => 0.3
  | .like _ pattern negated => if negated then 0.9 else patternSelectivity pattern
  | .nullCheck _ _ => 0.1
  | .logical _ _ | .subquery _ _ | .raw _ => 0.5

/-- How much a suggestion matters. -/
inductive Priority where
  | low
  | medium
  | high
deriving DecidableEq, Repr

namespace Priority

/-- The grade of a selectivity; a selectivity that is no number is low. -/
def ofSelectivity (s : Float) : Priority :=
  if s < 0.1 then .high else if s < 0.3 then .medium else .low

/-- The name of a priority. -/
def name : Priority → String
  | .low => "LOW"
  | .medium => "MEDIUM"
  | .high => "HIGH"

/-- The rank of a priority: low below medium below high. -/
def rank : Priority → Nat
  | .low => 0
  | .medium => 1
  | .high => 2

end Priority

end QueryAdvisor
