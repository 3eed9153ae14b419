import Mathlib.Data.List.Dedup
import Mathlib.Data.Prod.Lex
import Mathlib.Data.Rat.Cast.Defs
import Mathlib.Algebra.Order.Ring.Rat
import Mathlib.Data.String.Basic
import Nl2Sql.Lib.Dict
import Nl2Sql.Lib.Kleene

/-!
# Grouped queries over one relation

A fragment of SQL: one `SELECT` of aggregates over one relation, with a conjunction of conditions, at most one grouping expression,
at most one projection around it, an order and a limit. Its text, and its meaning in three-valued logic. The order in which a
database hands out rows is not part of a state, so an answer is any list of the result rows that the `ORDER BY` clause admits, and
a query may have several; the functions of the database that are not part of the language are those of a `Dialect`.
-/

namespace Sql

open Py

/-! ## Values -/

/-- A value of a column. Times are counted in microseconds, days from a fixed day. -/
inductive Value where
  | null
  | bool (b : Bool)
  | int (n : Int)
  | numeric (q : ℚ)
  | text (s : String)
  | date (day : Int)
  | timestamp (micros : Int)
  | timestamptz (micros : Int)
  deriving DecidableEq

namespace Value

/-- The place of a value in the order: its kind, then its number, then its text by code points. Null is last. -/
def rank : Value → Nat ×ₗ ℚ ×ₗ String
  | .bool b => toLex (0, toLex ((if b then 1 else 0 : ℚ), ""))
  | .int n => toLex (1, toLex ((n : ℚ), ""))
  | .numeric q => toLex (2, toLex (q, ""))
  | .text s => toLex (3, toLex ((0 : ℚ), s))
  | .date n => toLex (4, toLex ((n : ℚ), ""))
  | .timestamp n => toLex (5, toLex ((n : ℚ), ""))
  | .timestamptz n => toLex (6, toLex ((n : ℚ), ""))
  | .null => toLex (7, toLex ((0 : ℚ), ""))

theorem rank_injective : Function.Injective rank := by
  intro a b h
  cases a <;> cases b <;> simp [rank] at h <;> first | rfl | (subst h; rfl) | skip
  rename_i x y
  cases x <;> cases y <;> simp at h <;> rfl

instance : LinearOrder Value := LinearOrder.lift' rank rank_injective

/-- The number of a value that has one. -/
def number? : Value → Option ℚ
  | .int n => some n
  | .numeric q => some q
  | _ => none

end Value

/-- A row of a relation, by column. -/
abbrev Row : Type := String → Value

/-- A row of a result: its columns in order. -/
abbrev OutRow : Type := List (String × Value)

/-- A column of a result row. -/
def OutRow.get (row : OutRow) (name : String) : Value := (row.lookup name).getD .null

/-- A state: the rows of each relation of each schema. -/
abbrev Database : Type := String → String → List Row

/-- The values of the named parameters. -/
abbrev Params : Type := Dict String Value

/-- The functions of the database. -/
structure Dialect where
  /-- `AT TIME ZONE` of an instant -/
  atTimeZone : String → Int → Int
  /-- `DATE_TRUNC` of a local time -/
  dateTrunc : String → Int → Int
  /-- `DATE` of a local time -/
  date : Int → Int
  /-- the conversion to a 64-bit integer, none out of range -/
  bigint : ℚ → Option Int
  /-- `ROUND(100 * n / d, 2)` over numerics -/
  percent : Int → Int → ℚ

/-! ## Syntax -/

/-- An expression over the columns of a relation. -/
inductive Scalar where
  | column (name : String)
  | atTimeZone (e : Scalar) (zone : String)
  | dateTrunc (unit : String) (e : Scalar)
  | date (e : Scalar)
  | collate (e : Scalar) (collation : String)
  deriving DecidableEq

/-- A condition on a row; the values it compares with are parameters. -/
inductive Cond where
  | ge (e : Scalar) (param : String)
  | lt (e : Scalar) (param : String)
  | eq (e : Scalar) (param : String)
  | isIn (e : Scalar) (params : List String)
  | isTrue (e : Scalar)
  | isNull (e : Scalar)
  | isNotNull (e : Scalar)
  deriving DecidableEq

/-- An aggregate: a count of rows or of values, over the rows with some conditions, or a sum of 64 bits. -/
inductive Aggregate where
  | count (column : Option String) (filter : List Cond)
  | sum (column : String)
  deriving DecidableEq

/-- `SELECT key, aggregates FROM schema.relation WHERE … GROUP BY key`. -/
structure Grouped where
  key : Option (Scalar × String)
  aggregates : List (Aggregate × String)
  schema : String
  relation : String
  conditions : List Cond
  deriving DecidableEq

/-- An expression over the columns of a result row. -/
inductive RowExpr where
  | column (name : String)
  | null
  | text (s : String)
  | percent (numerator denominator : String)
  | caseZero (name : String) (zero other : RowExpr)
  deriving DecidableEq

/-- A column to order by. -/
inductive OrderKey where
  | asc (name : String)
  | descNullsLast (name : String)
  deriving DecidableEq

/-- The name of the column. -/
def OrderKey.name : OrderKey → String
  | .asc name => name
  | .descNullsLast name => name

/-- A projection around a query: its columns, each with its name, and the alias of the query. -/
structure Projection where
  columns : List (RowExpr × String)
  subquery : String
  deriving DecidableEq

/-- A query. -/
structure Query where
  grouped : Grouped
  projection : Option Projection
  orderBy : List OrderKey
  limit : Option Nat
  deriving DecidableEq

/-! ## Text -/

/-- A quoted identifier. -/
def quote (identifier : String) : String := "\"" ++ identifier ++ "\""

def Scalar.render : Scalar → String
  | .column name => quote name
  | .atTimeZone e zone => e.render ++ " AT TIME ZONE '" ++ zone ++ "'"
  | .dateTrunc unit e => "DATE_TRUNC('" ++ unit ++ "', " ++ e.render ++ ")"
  | .date e => "DATE(" ++ e.render ++ ")"
  | .collate e collation => e.render ++ " COLLATE " ++ quote collation

def Cond.render : Cond → String
  | .ge e param => e.render ++ " >= :" ++ param
  | .lt e param => e.render ++ " < :" ++ param
  | .eq e param => e.render ++ " = :" ++ param
  | .isIn e params => e.render ++ " IN (" ++ ", ".intercalate (params.map (":" ++ ·)) ++ ")"
  | .isTrue e => e.render ++ " IS TRUE"
  | .isNull e => e.render ++ " IS NULL"
  | .isNotNull e => e.render ++ " IS NOT NULL"

/-- A conjunction. -/
def renderAll (conditions : List Cond) : String := " AND ".intercalate (conditions.map Cond.render)

def Aggregate.render : Aggregate → String
  | .count column filter =>
    "COUNT(" ++ (column.map quote).getD "*" ++ ")" ++ (if filter = [] then "" else " FILTER (WHERE " ++ renderAll filter ++ ")")
  | .sum column => "CAST(COALESCE(SUM(" ++ quote column ++ "), 0) AS bigint)"

def Grouped.render (g : Grouped) : String :=
  "SELECT " ++
    (match g.key with
      | none => ""
      | some (e, name) => e.render ++ " AS " ++ name ++ ", ") ++
    ", ".intercalate (g.aggregates.map fun (a, name) => a.render ++ " AS " ++ name) ++
    " FROM " ++ quote g.schema ++ "." ++ quote g.relation ++ " WHERE " ++ renderAll g.conditions ++
    match g.key with
    | none => ""
    | some (e, _) => " GROUP BY " ++ e.render

def RowExpr.render : RowExpr → String
  | .column name => name
  | .null => "NULL"
  | .text s => "'" ++ s ++ "'"
  | .percent numerator denominator => "ROUND(100 * CAST(" ++ numerator ++ " AS numeric) / " ++ denominator ++ ", 2)"
  | .caseZero name zero other =>
    "CASE WHEN " ++ name ++ " = 0 THEN " ++ zero.render ++ " ELSE " ++ other.render ++ " END"

/-- A column of a projection: a plain column keeps its name. -/
def renderColumn : RowExpr × String → String
  | (.column source, name) => if source = name then name else source ++ " AS " ++ name
  | (e, name) => e.render ++ " AS " ++ name

def OrderKey.render : OrderKey → String
  | .asc name => name
  | .descNullsLast name => name ++ " DESC NULLS LAST"

def Query.render (q : Query) : String :=
  (match q.projection with
    | none => q.grouped.render
    | some p =>
      "SELECT " ++ ", ".intercalate (p.columns.map renderColumn) ++ " FROM (" ++ q.grouped.render ++ ") AS " ++ p.subquery) ++
    (if q.orderBy = [] then "" else " ORDER BY " ++ ", ".intercalate (q.orderBy.map OrderKey.render)) ++
    match q.limit with
    | none => ""
    | some n => " LIMIT " ++ toString n

/-! ## Meaning -/

section Meaning

variable (D : Dialect) (params : Params)

def Scalar.eval (row : Row) : Scalar → Value
  | .column name => row name
  | .atTimeZone e zone =>
    match e.eval row with
    | .timestamptz t => .timestamp (D.atTimeZone zone t)
    | _ => .null
  | .dateTrunc unit e =>
    match e.eval row with
    | .timestamp t => .timestamp (D.dateTrunc unit t)
    | _ => .null
  | .date e =>
    match e.eval row with
    | .timestamp t => .date (D.date t)
    | _ => .null
  | .collate e _ => e.eval row

/-- A comparison is unknown when a side is null. -/
def compare (test : Value → Value → Bool) (a b : Value) : Kleene :=
  if a = .null ∨ b = .null then .unknown else .ofBool (test a b)

/-- The value of a parameter. -/
def paramValue (name : String) : Value := (params.get? name).getD .null

def Cond.eval (row : Row) : Cond → Kleene
  | .ge e param => compare (fun a b => b ≤ a) (e.eval D row) (paramValue params param)
  | .lt e param => compare (fun a b => a < b) (e.eval D row) (paramValue params param)
  | .eq e param => compare (fun a b => a = b) (e.eval D row) (paramValue params param)
  | .isIn e names => .any (names.map fun name => compare (fun a b => a = b) (e.eval D row) (paramValue params name))
  | .isTrue e => .ofBool (e.eval D row = .bool true)
  | .isNull e => .ofBool (e.eval D row = .null)
  | .isNotNull e => .ofBool (e.eval D row ≠ .null)

/-- A row is kept by conditions whose conjunction is true. -/
def keeps (conditions : List Cond) (row : Row) : Bool := Kleene.all (conditions.map (Cond.eval D params row)) = .true

/-- An aggregate over the rows of a group, none where it overflows. -/
def Aggregate.eval (rows : List Row) : Aggregate → Option Value
  | .count none filter => some (.int (rows.countP (keeps D params filter)))
  | .count (some column) filter => some (.int (rows.countP fun row => keeps D params filter row && decide (row column ≠ .null)))
  | .sum column => (D.bigint (rows.filterMap fun row => (row column).number?).sum).map .int

/-- The result row of a group. -/
def Grouped.outRow (g : Grouped) (keys : OutRow) (rows : List Row) : Option OutRow :=
  (g.aggregates.mapM fun item : Aggregate × String => (item.1.eval D params rows).map (item.2, ·)).map (keys ++ ·)

/-- The rows of a relation that a query reads. -/
def Grouped.kept (g : Grouped) (db : Database) : List Row := (db g.schema g.relation).filter (keeps D params g.conditions)

/-- The result rows of a grouped query, in no particular order. -/
def Grouped.results (g : Grouped) (rows : List Row) : List (Option OutRow) :=
  match g.key with
  | none => [g.outRow D params [] rows]
  | some (e, name) =>
    (rows.map (Scalar.eval D · e)).dedup.map fun v => g.outRow D params [(name, v)] (rows.filter fun row => Scalar.eval D row e = v)

def RowExpr.eval (row : OutRow) : RowExpr → Value
  | .column name => row.get name
  | .null => .null
  | .text s => .text s
  | .percent numerator denominator =>
    match row.get numerator, row.get denominator with
    | .int n, .int d => .numeric (D.percent n d)
    | _, _ => .null
  | .caseZero name zero other => if row.get name = .int 0 then zero.eval row else other.eval row

/-- The projection of a result row. -/
def Query.project (q : Query) (row : OutRow) : OutRow :=
  match q.projection with
  | none => row
  | some p => p.columns.map fun (e, name) => (name, e.eval D row)

/-- The result rows of a query, in no particular order. -/
def Query.results (q : Query) (db : Database) : List (Option OutRow) :=
  (q.grouped.results D params (q.grouped.kept D params db)).map (Option.map (q.project D))

/-- The place of a value under a direction comes strictly before another. -/
def OrderKey.before (k : OrderKey) (a b : Value) : Prop :=
  match k with
  | .asc _ => a < b
  | .descNullsLast _ => a ≠ .null ∧ (b = .null ∨ b < a)

/-- A result row may stand before another. -/
def orderLe : List OrderKey → OutRow → OutRow → Prop
  | [], _, _ => True
  | k :: ks, a, b => k.before (a.get k.name) (b.get k.name) ∨ (a.get k.name = b.get k.name ∧ orderLe ks a b)

/-- The first rows, of all or of as many as the limit has. -/
def Query.cut (q : Query) (rows : List OutRow) : List OutRow :=
  match q.limit with
  | none => rows
  | some n => rows.take n

/-- The answers of a query: none for an overflow, else the result rows in an order that the query admits, up to its limit. -/
def Query.Answers (q : Query) (db : Database) : Option (List OutRow) → Prop
  | none => none ∈ q.results D params db
  | some out => none ∉ q.results D params db ∧
      ∃ rows, rows.Perm (q.results D params db).reduceOption ∧ rows.Pairwise (orderLe q.orderBy) ∧ out = q.cut rows

end Meaning

end Sql
