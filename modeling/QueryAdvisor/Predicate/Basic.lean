import QueryAdvisor.Value.Basic
import QueryAdvisor.Text.Blank
/-!
# Filter predicates

A predicate of a query's filter: a comparison of a field with a literal, membership in a list
of literals, a range, a pattern, a null check, a connective over other predicates, membership
in a sub-select, or an SQL fragment the model does not look into.

A field is written as the query writes it, perhaps with a table in front (`o.status`). Its
column is the part after the last point, without surrounding white space; its qualifier is the
part before the last point, without surrounding white space, if that is not empty.

The leaves of a predicate are the predicates on one field inside it, depth first; connectives
are looked through and fragments are left out.
-/

namespace QueryAdvisor

/-- A comparison operator. -/
inductive CompareOp where
  | eq
  | notEq
  | lt
  | le
  | gt
  | ge
deriving DecidableEq, Repr

namespace CompareOp

/-- The SQL symbol of an operator. -/
def symbol : CompareOp → String
  | .eq => "="
  | .notEq => "!="
  | .lt => "<"
  | .le => "<="
  | .gt => ">"
  | .ge => ">="

/-- Reads an operator symbol, blanks around it allowed: `==` is equality and `<>` is
inequality besides the symbols above. -/
def ofSymbol? (s : String) : Option CompareOp :=
  match trimBlank s with
  | "=" | "==" => some .eq
  | "!=" | "<>" => some .notEq
  | "<" => some .lt
  | "<=" => some .le
  | ">" => some .gt
  | ">=" => some .ge
  | _ => none

/-- The operators that bound a range. -/
def isRange : CompareOp → Bool
  | .lt | .le | .gt | .ge => true
  | _ => false

end CompareOp

/-- A connective of predicates. -/
inductive Connective where
  | and
  | or
  | not
deriving DecidableEq, Repr

/-- The SQL keyword of a connective. -/
def Connective.keyword : Connective → String
  | .and => "AND"
  | .or => "OR"
  | .not => "NOT"

/-- A filter predicate. -/
inductive Predicate where
  | comparison (field : String) (op : CompareOp) (value : Value)
  | inList (field : String) (values : List Value) (negated : Bool)
  | between (field : String) (low high : Value)
  | like (field : String) (pattern : String) (negated : Bool)
  | nullCheck (field : String) (isNull : Bool)
  | logical (op : Connective) (children : List Predicate)
  | subquery (field : String) (sql : String)
  | raw (sql : String)

/-- The column of a field: the part after the last point, without white space around it. -/
def unqualified (field : String) : String :=
  trimBlank (String.ofList (field.toList.reverse.takeWhile (· != '.')).reverse)

/-- The qualifier of a field: the part before the last point, without white space around it,
if there is a point and that part is not empty. -/
def qualifierOf (field : String) : Option String :=
  match field.toList.reverse.dropWhile (· != '.') with
  | _ :: before =>
    let q := trimBlank (String.ofList before.reverse)
    if q.isEmpty then none else some q
  | [] => none

namespace Predicate

/-- The field a predicate tests, as written. -/
def field? : Predicate → Option String
  | .comparison f _ _ | .inList f _ _ | .between f _ _ | .like f _ _ | .nullCheck f _
  | .subquery f _ => some f
  | .logical _ _ | .raw _ => none

/-- The column a predicate tests. -/
def column? (p : Predicate) : Option String := p.field?.map unqualified

/-- The table qualifier of the field a predicate tests. -/
def qualifier? (p : Predicate) : Option String := p.field?.bind qualifierOf

/-- Whether a predicate tests one field. -/
def isLeaf : Predicate → Bool
  | .logical _ _ | .raw _ => false
  | _ => true

mutual

/-- Pushes the predicates on one field inside a predicate onto `out`, depth first: a connective
pushes those of its children, a fragment nothing. -/
def collectLeaves : Predicate → Array Predicate → Array Predicate
  | .logical _ children, out => collectLeavesOf children out
  | .raw _, out => out
  | p, out => out.push p

/-- Pushes the leaves of each predicate of a list onto `out`, in order. -/
def collectLeavesOf : List Predicate → Array Predicate → Array Predicate
  | [], out => out
  | p :: rest, out => collectLeavesOf rest (collectLeaves p out)

end

/-- The predicates on one field inside a predicate, depth first. -/
def leaves (p : Predicate) : List Predicate := (collectLeaves p #[]).toList

mutual

/-- Every node of a predicate's tree, depth first, each node before its children. -/
def nodes : Predicate → List Predicate
  | .logical op children => .logical op children :: nodesOf children
  | p => [p]

/-- The nodes of each predicate of a list, in order. -/
def nodesOf : List Predicate → List Predicate
  | [] => []
  | p :: rest => nodes p ++ nodesOf rest

end

mutual

/-- The SQL text of a predicate. -/
def sql : Predicate → String
  | .comparison f op v => f ++ " " ++ op.symbol ++ " " ++ v.sql
  | .inList f vs negated =>
    f ++ (if negated then " NOT IN (" else " IN (") ++ ", ".intercalate (vs.map Value.sql) ++ ")"
  | .between f lo hi => f ++ " BETWEEN " ++ lo.sql ++ " AND " ++ hi.sql
  | .like f pattern negated =>
    f ++ (if negated then " NOT LIKE " else " LIKE ") ++ Value.quoted pattern
  | .nullCheck f isNull => f ++ (if isNull then " IS NULL" else " IS NOT NULL")
  | .logical .not children =>
    match children with
    | [] => "NOT ()"
    | c :: _ => "NOT (" ++ sql c ++ ")"
  | .logical op children => (" " ++ op.keyword ++ " ").intercalate (groupedSql children)
  | .subquery f s => f ++ " IN (" ++ s ++ ")"
  | .raw s => s

/-- Each predicate's SQL text in parentheses. -/
def groupedSql : List Predicate → List String
  | [] => []
  | p :: rest => ("(" ++ sql p ++ ")") :: groupedSql rest

end

end Predicate

end QueryAdvisor
