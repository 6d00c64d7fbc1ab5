import RelationalAlgebra.Proofs.Aggregate.Outcomes
import RelationalAlgebra.Proofs.Correspondence

/-!
# Conditions and aggregates under other names

A map on attributes gives other names to the columns of a heading and to everything that refers to
them.  If it is injective, it may change the names altogether, add qualifiers or take them away:
an attribute is found at the position at which it was found before, or it is missing as before.
So the value that a record has at an attribute does not change, and what conditions and aggregates
make of it does not change either.  Only errors show the names.
-/

namespace RelationalAlgebra

/-- An error that shows other names. -/
def Error.relabel (f : Attribute → Attribute) : Error → Error
  | .missingAttribute missing => .missingAttribute (f missing)
  | .noCommonAttributes left right => .noCommonAttributes (left.map f) (right.map f)
  | .attributeConflict shared => .attributeConflict (shared.map f)
  | .headingMismatch left right => .headingMismatch (left.map f) (right.map f)
  | .arity expected found => .arity expected found
  | .emptyGroup kind => .emptyGroup kind
  | .typeMismatch operation left right => .typeMismatch operation left right
  | .unknownLookup name => .unknownLookup name
  | .unknownAggregate name => .unknownAggregate name
  | .inputCount operator expected found => .inputCount operator expected found

namespace Error

/-- An error stays of its sort under other names. -/
lemma kind_relabel (f : Attribute → Attribute) (e : Error) : (e.relabel f).kind = e.kind := by
  cases e <;> rfl

/-- An error that shows no attributes. -/
def Unnamed (e : Error) : Prop :=
  ∀ f, e.relabel f = e

/-- Values that do not fit are an error that shows no attributes. -/
lemma unnamed_of_typeMismatch {e : Error} (h : e.kind = .typeMismatch) : e.Unnamed := by
  cases e with
  | typeMismatch operation left right => exact fun _ => rfl
  | _ => cases h

end Error

/-- Two outcomes, the second one under other names: results are related, and errors are the same
but for the names. -/
abbrev Relabelled (f : Attribute → Attribute) {α β : Type} (same : α → β → Prop) :
    Except Error α → Except Error β → Prop :=
  Corresponds same fun d e => e = d.relabel f

/-- An operation on values alone has one outcome under all names. -/
lemma relabelled_self (f : Attribute → Attribute) {α : Type} {x : Except Error α}
    (h : Meets (fun _ => True) Error.Unnamed x) : Relabelled f (· = ·) x x := by
  cases x with
  | ok a => exact .ok rfl
  | error e => exact .error (h f).symm

/-- A record whose values have other names. -/
def Record.relabel (f : Attribute → Attribute) (record : Record) : Record :=
  ⟨record.heading.map f, record.values⟩

/-! ## Headings and records -/

section

variable {f : Attribute → Attribute} (hf : Function.Injective f)
include hf

namespace Heading

/-- A heading has an attribute under its other name if it had it before. -/
lemma contains_map (heading : Heading) (attr : Attribute) :
    (heading.map f).contains (f attr) = heading.contains attr := by
  rw [Bool.eq_iff_iff, List.contains_iff_mem, List.contains_iff_mem, List.mem_map_of_injective hf]

/-- Two headings share under other names what they shared before. -/
lemma shared_map (left right : Heading) :
    shared (left.map f) (right.map f) = (shared left right).map f := by
  rw [shared, List.filter_map]
  exact congrArg (List.map f) (List.filter_congr fun a _ => contains_map hf right a)

/-- A heading has under other names what it had before beyond another heading. -/
lemma without_map (heading other : Heading) :
    without (heading.map f) (other.map f) = (heading.without other).map f := by
  rw [without, List.filter_map]
  exact congrArg (List.map f) (List.filter_congr fun a _ => congrArg not (contains_map hf other a))

/-- Headings are disjoint under other names if they were before, or the error lists what they
share. -/
lemma ensureDisjoint_relabelled (left right : Heading) :
    Relabelled f (· = ·) (ensureDisjoint left right)
      (ensureDisjoint (left.map f) (right.map f)) := by
  unfold ensureDisjoint
  rw [shared_map hf]
  by_cases h : shared left right = []
  · rw [if_pos h, if_pos (List.map_eq_nil_iff.2 h)]
    exact .ok rfl
  · rw [if_neg h, if_neg (mt List.map_eq_nil_iff.1 h)]
    exact .error rfl

/-- Headings are the same under other names if they were before, or the error shows both. -/
lemma ensureSame_relabelled (left right : Heading) :
    Relabelled f (· = ·) (ensureSame left right) (ensureSame (left.map f) (right.map f)) := by
  unfold ensureSame
  by_cases h : left = right
  · rw [if_pos h, if_pos (congrArg (List.map f) h)]
    exact .ok rfl
  · rw [if_neg h, if_neg (mt (fun hmap => hf.list_map hmap) h)]
    exact .error rfl

/-- An attribute is found under its other name where it was found before. -/
lemma indexOf_relabelled (heading : Heading) (attr : Attribute) :
    Relabelled f (· = ·) (heading.indexOf attr) (Heading.indexOf (heading.map f) (f attr)) := by
  have hposition : List.idxOf? (f attr) (heading.map f) = List.idxOf? attr heading := by
    unfold List.idxOf?
    rw [List.findIdx?_map]
    exact congrArg (fun test => List.findIdx? test heading) (funext fun a => hf.beq_eq)
  unfold indexOf
  rw [hposition]
  cases List.idxOf? attr heading with
  | none => exact .error rfl
  | some i => exact .ok rfl

/-- Attributes are found under their other names where they were found before. -/
lemma positions_relabelled (heading : Heading) (attrs : List Attribute) :
    Relabelled f (· = ·) (heading.positions attrs)
      (Heading.positions (heading.map f) (attrs.map f)) :=
  Corresponds.mapM_map fun attr _ => indexOf_relabelled hf heading attr

end Heading

/-- A record has under the other name of an attribute the value that it had at the attribute. -/
lemma Record.get_relabelled (record : Record) (attr : Attribute) :
    Relabelled f (· = ·) (record.get attr) ((record.relabel f).get (f attr)) :=
  (Heading.indexOf_relabelled hf record.heading attr).map fun i j hij => by rw [hij]; rfl

end

/-! ## Conditions -/

/-- An operand that refers to fields by other names. -/
def Operand.relabel (f : Attribute → Attribute) : Operand → Operand
  | .literal value => .literal value
  | .field attr => .field (f attr)

namespace Predicate

mutual

/-- A predicate that refers to fields by other names. -/
def relabel (f : Attribute → Attribute) : Predicate → Predicate
  | .compare lookup lhs rhs => .compare lookup (lhs.relabel f) (rhs.relabel f)
  | .all parts => .all (relabelList f parts)
  | .any parts => .any (relabelList f parts)
  | .not part => .not (relabel f part)

/-- The predicates of a list, referring to fields by other names. -/
def relabelList (f : Attribute → Attribute) : List Predicate → List Predicate
  | [] => []
  | part :: parts => relabel f part :: relabelList f parts

end

/-- The predicates of a list get other names one by one. -/
lemma relabelList_eq_map (f : Attribute → Attribute) (parts : List Predicate) :
    relabelList f parts = parts.map (relabel f) := by
  induction parts with
  | nil => rfl
  | cons part parts ih => rw [relabelList, ih, List.map_cons]

/-- Equations between columns are equations between the columns of other names. -/
lemma relabel_equations (f : Attribute → Attribute) (pairs : List JoinPair) :
    (equations pairs).relabel f = equations (pairs.map (Prod.map f f)) := by
  rw [equations, relabel, relabelList_eq_map, equations, List.map_map, List.map_map]
  rfl

end Predicate

section

variable {f : Attribute → Attribute} (hf : Function.Injective f)
include hf

/-- An operand has under other names the value that it had before. -/
lemma Operand.resolve_relabelled (record : Record) (operand : Operand) :
    Relabelled f (· = ·) (operand.resolve record)
      ((operand.relabel f).resolve (record.relabel f)) := by
  cases operand with
  | literal value => exact .ok rfl
  | field attr => exact record.get_relabelled hf attr

/-- A predicate is true under other names of the records of which it was true before, and fails
with the same error but for the names. -/
theorem Predicate.eval_relabelled (record : Record) (predicate : Predicate) :
    Relabelled f (· = ·) (predicate.eval record)
      ((predicate.relabel f).eval (record.relabel f)) := by
  have hlist : ∀ parts : List Predicate,
      (∀ part ∈ parts, Relabelled f (· = ·) (part.eval record)
        ((part.relabel f).eval (record.relabel f))) →
      Relabelled f (· = ·) (evalList record parts)
        (evalList (record.relabel f) (relabelList f parts)) := by
    intro parts ih
    rw [evalList_eq_mapM, evalList_eq_mapM, relabelList_eq_map]
    exact Corresponds.mapM_map ih
  induction predicate with
  | compare lookup lhs rhs =>
    refine (lhs.resolve_relabelled hf record).bind fun a a' ha => ?_
    refine (rhs.resolve_relabelled hf record).bind fun b b' hb => ?_
    subst ha hb
    have happly := (lookup.apply_meets a b).imp_error fun _ => Error.unnamed_of_typeMismatch
    exact relabelled_self f happly
  | all parts ih => exact (hlist parts ih).bind fun values values' h => .ok (by rw [h])
  | any parts ih => exact (hlist parts ih).bind fun values values' h => .ok (by rw [h])
  | not part ih => exact ih.bind fun value value' h => .ok (by rw [h])

end

/-! ## Aggregates -/

/-- An aggregate over an attribute of another name. -/
def Aggregate.relabel (f : Attribute → Attribute) (aggregate : Aggregate) : Aggregate :=
  ⟨aggregate.kind, f aggregate.attr⟩

/-- An aggregate over an attribute of another name, with a result of another name. -/
def Aggregation.relabel (f : Attribute → Attribute) (aggregation : Aggregation) : Aggregation :=
  ⟨aggregation.aggregate.relabel f, f aggregation.output⟩

/-- An aggregate of values fails only with an error that shows no attributes. -/
lemma AggregateKind.reduce_meets_unnamed (kind : AggregateKind) (values : List Scalar) :
    Meets (fun _ => True) Error.Unnamed (kind.reduce values) := by
  by_cases h : values = []
  · subst h
    cases kind with
    | count | sum => trivial
    | min | max | avg => exact fun _ => rfl
  · exact (kind.reduce_meets h).imp_error fun _ => Error.unnamed_of_typeMismatch

/-- An aggregate over some records has one result under all names. -/
lemma Aggregate.apply_relabelled {f : Attribute → Attribute} (hf : Function.Injective f)
    (aggregate : Aggregate) (group : List Record) :
    Relabelled f (· = ·) (aggregate.apply group)
      ((aggregate.relabel f).apply (group.map (Record.relabel f))) := by
  have hvalues : Relabelled f (· = ·) (group.mapM fun record => record.get aggregate.attr)
      ((group.map (Record.relabel f)).mapM fun record => record.get (f aggregate.attr)) :=
    Corresponds.mapM_map fun record _ => record.get_relabelled hf aggregate.attr
  refine hvalues.bind fun values values' hequal => ?_
  rw [← hequal]
  exact relabelled_self f (aggregate.kind.reduce_meets_unnamed values)

end RelationalAlgebra
