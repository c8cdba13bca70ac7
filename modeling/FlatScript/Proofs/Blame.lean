/-
# Runtime errors point at the node that failed

A run that fails names a line and a fault.  Both come from one node of the program
that was reached with the variables that are left behind (`Program.Explains`):

| fault | node on that line | in the context left behind |
| --- | --- | --- |
| undefined variable | a variable of that name | has no value |
| division by zero | a division | its operands have values, and it is by zero |
| overflow | `+`, `-`, `*`, `/` or a negation | its operands have values, the result is out of range |
| type mismatch | any operator or a negation | its operands have values of kinds that do not fit |
| type mismatch | an if or a loop | its condition has a value that is no boolean |

An expression that fails has one node whose operands all have values and that fails
itself (`Expr.exists_fails`).  The machine stops at a statement with such an
expression, or with a condition that is no boolean (`Machine.Stops.failed_cases`),
and none of its steps brings in new expressions or statements.

The kinds of the operands decide the words of a mismatch too
(`Operator.apply_of_kind?_eq_none`), and only of numbers is a number demanded
(`Operator.apply_mixed`).  So the words that are kept for an operator in the wrong
family, or for a number that is none, are never those of an error.
-/

import FlatScript.Proofs.Kinds
import FlatScript.Proofs.Machine

namespace FlatScript

namespace Value

/-- An integer that does not fit is no division by zero. -/
theorem exact_ne_divisionByZero (n : Int) : exact n ≠ .error .divisionByZero := by
  unfold exact
  split <;> simp

theorem finite_ne_divisionByZero (x : Float) : finite x ≠ .error .divisionByZero := by
  unfold finite
  split <;> simp

end Value

namespace Operator

/-- What is wrong with operands of two kinds that the operator does not fit. -/
def mismatch (op : Operator) (k k' : Kind) : Mismatch :=
  if op.isComparison then .incomparable k k'
  else if op = .add ∧ (k = .boolean ∨ k' = .boolean) then .booleanAddition
  else .operands op k k'

variable {op : Operator} {v w : Value}

/-- **The kinds of operands that do not fit decide what the mismatch says.** -/
theorem apply_of_kind?_eq_none (h : op.kind? v.kind w.kind = none) :
    op.apply v w = .error (.typeMismatch (op.mismatch v.kind w.kind)) := by
  unfold apply mismatch
  unfold kind? at h
  cases hop : op.isComparison with
  | true =>
    have hkinds : v.kind.goesWith w.kind = false := by simpa [hop] using h
    simp only [if_true, compare, hop, Value.order_eq_error hkinds]
  | false =>
    rw [hop, if_neg Bool.false_ne_true] at h
    simp only [Bool.false_eq_true, if_false, compute]
    split
    · rfl
    · cases v <;> cases w <;> simp_all [computedKind?, Value.kind, Kind.isNumber]

/-- A comparison fails by a mismatch only. -/
theorem isComparison_eq_false_of_apply {fault : RuntimeFault} (h : op.apply v w = .error fault)
    (hnumbers : fault = .divisionByZero ∨ fault = .overflow) : op.isComparison = false := by
  cases hop : op.isComparison with
  | false => rfl
  | true =>
    rw [apply, if_pos hop, compare, if_pos hop] at h
    cases hkinds : v.kind.goesWith w.kind with
    | true =>
      obtain ⟨o, ho⟩ := Value.exists_order hkinds
      rw [ho] at h
      cases h
    | false =>
      rw [Value.order_eq_error hkinds] at h
      cases h
      simp at hnumbers

/-- Among integers only a division divides by zero. -/
theorem eq_div_of_onIntegers {a b : Int64} (h : op.onIntegers a b = .error .divisionByZero) :
    op = .div := by
  cases op with
  | div => rfl
  | add | sub | mul => exact absurd h (Value.exact_ne_divisionByZero _)
  | less | greater | equal | notEqual => cases h

theorem eq_div_of_onFloats {x y : Float} (h : op.onFloats x y = .error .divisionByZero) :
    op = .div := by
  cases op with
  | div => rfl
  | add | sub | mul => exact absurd h (Value.finite_ne_divisionByZero _)
  | less | greater | equal | notEqual => cases h

/-- Only a division is by zero. -/
theorem eq_div_of_apply (h : op.apply v w = .error .divisionByZero) : op = .div := by
  have hop := isComparison_eq_false_of_apply h (.inl rfl)
  by_cases hnumbers : v.kind.isNumber = true ∧ w.kind.isNumber = true
  · by_cases hintegers : v.kind = .integer ∧ w.kind = .integer
    · obtain ⟨a, rfl⟩ := Value.exists_integer_of_kind hintegers.1
      obtain ⟨b, rfl⟩ := Value.exists_integer_of_kind hintegers.2
      have happly : op.apply (.integer a) (.integer b) = op.onIntegers a b := by
        simp [apply, hop, compute, Value.kind]
      exact eq_div_of_onIntegers (happly.symm.trans h)
    · obtain ⟨x, y, -, -, hfloats⟩ := apply_mixed op hnumbers.1 hnumbers.2
        fun hv hw => hintegers ⟨hv, hw⟩
      rw [hfloats, hop, if_neg Bool.false_ne_true] at h
      exact eq_div_of_onFloats h
  · -- Values that are not both numbers are joined, or do not fit.
    rw [apply, hop, if_neg Bool.false_ne_true] at h
    unfold compute at h
    split at h
    · cases h
    · split at h
      · exact absurd ⟨rfl, rfl⟩ hnumbers
      · split at h <;> cases h
      · rw [if_neg (fun hboth => hnumbers (Bool.and_eq_true_iff.1 hboth))] at h
        cases h

/-- **An operator fails in three ways**, and only in one of them by the kinds of its
operands. -/
theorem apply_error_cases {fault : RuntimeFault} (h : op.apply v w = .error fault) :
    op = .div ∧ fault = .divisionByZero ∨ op.isComparison = false ∧ fault = .overflow ∨
      op.kind? v.kind w.kind = none ∧ fault = .typeMismatch (op.mismatch v.kind w.kind) := by
  cases hkind : op.kind? v.kind w.kind with
  | none =>
    rw [apply_of_kind?_eq_none hkind] at h
    exact .inr (.inr ⟨rfl, (Except.error.inj h).symm⟩)
  | some k =>
    have hnumbers := op.foretells_apply v w
    rw [hkind, h] at hnumbers
    rcases hnumbers with rfl | rfl
    · exact .inl ⟨eq_div_of_apply h, rfl⟩
    · exact .inr (.inl ⟨isComparison_eq_false_of_apply h (.inr rfl), rfl⟩)

end Operator

/-- A negation fails in two ways, and only in one of them by the kind of its operand. -/
theorem Value.negate_error_cases {v : Value} {fault : RuntimeFault}
    (h : v.negate = .error fault) :
    fault = .overflow ∨
      v.kind.isNumber = false ∧ fault = .typeMismatch (.notNegatable v.kind) := by
  cases v with
  | integer n =>
    rw [negate, exact] at h
    split at h <;> cases h
    exact .inl rfl
  | real x => cases h
  | bool b => exact .inr ⟨rfl, (Except.error.inj h).symm⟩
  | str s => exact .inr ⟨rfl, (Except.error.inj h).symm⟩

/-- An error on a line is a fault, and that line. -/
theorem onLine_eq_error_iff {α : Type} {n : Nat} {x : Except RuntimeFault α}
    {err : RuntimeError} : onLine n x = .error err ↔ x = .error err.val ∧ err.line = n := by
  cases x with
  | ok a => simp [onLine]
  | error fault =>
    cases err
    simp [onLine, eq_comm]

namespace Expr

/-- `e.Fails c fault`: all operands of the top node of `e` have values, and the node
itself fails. -/
inductive Fails (c : Context) : Expr → RuntimeFault → Prop where
  | unbound {x : String} {n : Nat} (h : c.get? x = none) :
      Fails c (.var x n) (.undefinedVariable x)
  | negation {e : Expr} {n : Nat} {v : Value} {fault : RuntimeFault}
      (he : e.eval c = .ok v) (h : v.negate = .error fault) : Fails c (.negate e n) fault
  | operation {op : Operator} {l r : Expr} {n : Nat} {v w : Value} {fault : RuntimeFault}
      (hl : l.eval c = .ok v) (hr : r.eval c = .ok w) (h : op.apply v w = .error fault) :
      Fails c (.binary op l r n) fault

/-- **An expression that fails has one node that fails**, on the line of the error. -/
theorem exists_fails {c : Context} {e : Expr} {err : RuntimeError} (h : e.eval c = .error err) :
    ∃ f ∈ e.nodes, f.line = err.line ∧ f.Fails c err.val := by
  induction e with
  | literal v n => cases h
  | var x n =>
    obtain ⟨hx, hline⟩ := onLine_eq_error_iff.1 h
    refine ⟨.var x n, mem_nodes_self _, hline.symm, ?_⟩
    rw [Context.lookup] at hx
    split at hx
    · cases hx
    · rw [← Except.error.inj hx]
      exact .unbound ‹_›
  | negate e n ih =>
    rw [eval] at h
    split at h
    · obtain ⟨hv, hline⟩ := onLine_eq_error_iff.1 h
      exact ⟨_, mem_nodes_self _, hline.symm, .negation ‹_› hv⟩
    · cases h
      obtain ⟨f, hmem, hf⟩ := ih ‹_›
      exact ⟨f, List.mem_append_left _ hmem, hf⟩
  | binary op l r n ihl ihr =>
    rw [eval] at h
    split at h
    · split at h
      · obtain ⟨hv, hline⟩ := onLine_eq_error_iff.1 h
        exact ⟨_, mem_nodes_self _, hline.symm, .operation ‹_› ‹_› hv⟩
      · cases h
        obtain ⟨f, hmem, hf⟩ := ihr ‹_›
        exact ⟨f, List.mem_append_right _ (List.mem_append_left _ hmem), hf⟩
    · cases h
      obtain ⟨f, hmem, hf⟩ := ihl ‹_›
      exact ⟨f, List.mem_append_left _ hmem, hf⟩

end Expr

namespace Stmt

/-- The condition of a statement that has one. -/
def condition? : Stmt → Option Expr
  | .ifThen c _ _ | .ifElse c _ _ _ | .loop c _ _ => some c
  | .print _ _ | .assign _ _ _ | .block _ _ => none

/-- The nodes of a condition are nodes of its statement. -/
theorem nodes_subset_of_condition? {s : Stmt} {e : Expr} (h : s.condition? = some e) :
    e.nodes ⊆ s.nodes := by
  cases s with
  | ifThen c s n | ifElse c s t n | loop c s n =>
    obtain rfl := Option.some.inj h
    exact List.subset_append_left _ _
  | print e n | assign x e n | block ss n => cases h

end Stmt

namespace Program

/-- The statements that occur in a program. -/
def parts (p : Program) : List Stmt :=
  Stmt.partsOf p

/-- `p.Explains c err`: a node of `p` on the line of `err` fails in the context `c`,
and with the fault of `err`. -/
inductive Explains (p : Program) (c : Context) : RuntimeError → Prop where
  | unbound {x : String} {n : Nat} (hnode : .var x n ∈ p.nodes) (hx : c.get? x = none) :
      Explains p c ⟨.undefinedVariable x, n⟩
  | zeroDivisor {l r : Expr} {n : Nat} {v w : Value} (hnode : .binary .div l r n ∈ p.nodes)
      (hl : l.eval c = .ok v) (hr : r.eval c = .ok w)
      (hzero : Operator.div.apply v w = .error .divisionByZero) :
      Explains p c ⟨.divisionByZero, n⟩
  | outOfRange {op : Operator} {l r : Expr} {n : Nat} {v w : Value}
      (hop : op.isComparison = false) (hnode : .binary op l r n ∈ p.nodes)
      (hl : l.eval c = .ok v) (hr : r.eval c = .ok w)
      (hover : op.apply v w = .error .overflow) : Explains p c ⟨.overflow, n⟩
  | negationOutOfRange {e : Expr} {n : Nat} {v : Value} (hnode : .negate e n ∈ p.nodes)
      (he : e.eval c = .ok v) (hover : v.negate = .error .overflow) :
      Explains p c ⟨.overflow, n⟩
  | operands {op : Operator} {l r : Expr} {n : Nat} {v w : Value}
      (hnode : .binary op l r n ∈ p.nodes) (hl : l.eval c = .ok v) (hr : r.eval c = .ok w)
      (hkinds : op.kind? v.kind w.kind = none) :
      Explains p c ⟨.typeMismatch (op.mismatch v.kind w.kind), n⟩
  | negation {e : Expr} {n : Nat} {v : Value} (hnode : .negate e n ∈ p.nodes)
      (he : e.eval c = .ok v) (hkind : v.kind.isNumber = false) :
      Explains p c ⟨.typeMismatch (.notNegatable v.kind), n⟩
  | condition {s : Stmt} {e : Expr} {v : Value} (hpart : s ∈ p.parts)
      (hs : s.condition? = some e) (he : e.eval c = .ok v) (hkind : v.kind ≠ .boolean) :
      Explains p c ⟨.typeMismatch (.notCondition v.kind), s.line⟩

/-- A node that fails explains its fault. -/
theorem explains_of_fails {p : Program} {c : Context} {f : Expr} {fault : RuntimeFault}
    (hnode : f ∈ p.nodes) (h : f.Fails c fault) : p.Explains c ⟨fault, f.line⟩ := by
  cases h with
  | unbound hx => exact .unbound hnode hx
  | negation he hneg =>
    rcases Value.negate_error_cases hneg with rfl | ⟨hkind, rfl⟩
    · exact .negationOutOfRange hnode he hneg
    · exact .negation hnode he hkind
  | operation hl hr happly =>
    rcases Operator.apply_error_cases happly with ⟨rfl, rfl⟩ | ⟨hop, rfl⟩ | ⟨hkinds, rfl⟩
    · exact .zeroDivisor hnode hl hr happly
    · exact .outOfRange hop hnode hl hr happly
    · exact .operands hnode hl hr hkinds

/-- What fails an evaluation explains the failure of a program with that expression. -/
theorem explains_of_eval {p : Program} {c : Context} {e : Expr} {err : RuntimeError}
    (hnodes : e.nodes ⊆ p.nodes) (h : e.eval c = .error err) : p.Explains c err := by
  obtain ⟨f, hmem, hline, hf⟩ := Expr.exists_fails h
  have hexplains := explains_of_fails (hnodes hmem) hf
  rwa [hline] at hexplains

end Program

/-- **The machine stops by a failure at its first statement**, whose expression or
whose condition fails. -/
theorem Machine.Stops.failed_cases {cfg : Config} {err : RuntimeError} {st : State}
    (h : Stops cfg (.failed err st)) :
    ∃ s k, cfg.rest = s :: k ∧
      ((∃ e : Expr, e.nodes = s.nodes ∧ e.eval st.context = .error err) ∨
        ∃ e, s.condition? = some e ∧ ConditionFails e s.line st.context err) := by
  cases h with
  | print he => exact ⟨_, _, rfl, .inl ⟨_, rfl, he⟩⟩
  | assign he => exact ⟨_, _, rfl, .inl ⟨_, rfl, he⟩⟩
  | ifThen hc => exact ⟨_, _, rfl, .inr ⟨_, rfl, hc⟩⟩
  | ifElse hc => exact ⟨_, _, rfl, .inr ⟨_, rfl, hc⟩⟩
  | loop hc => exact ⟨_, _, rfl, .inr ⟨_, rfl, hc⟩⟩

/-- Every failing run is explained by a node of its program. -/
theorem Program.explains_of_run {limit : Nat} {p : Program} {st st' : State}
    {err : RuntimeError} (h : p.run limit st = some (.failed err st')) :
    p.Explains st'.context err := by
  let inv (cfg : Machine.Config) : Prop :=
    Stmt.nodesOf cfg.rest ⊆ p.nodes ∧ Stmt.partsOf cfg.rest ⊆ p.parts
  have hstep : ∀ a b, Machine.Step a b → inv a → inv b := fun a b hab ha =>
    ⟨List.Subset.trans hab.nodes_subset ha.1, List.Subset.trans hab.parts_subset ha.2⟩
  obtain ⟨cfg, ⟨hnodes, hparts⟩, hstops⟩ :=
    Machine.exists_stops_of_run hstep h ⟨List.Subset.refl _, List.Subset.refl _⟩
  obtain ⟨s, k, hrest, hfailed⟩ := hstops.failed_cases
  rw [hrest] at hnodes hparts
  have hs : s.nodes ⊆ p.nodes := (List.append_subset.1 hnodes).1
  have hpart : s ∈ p.parts := hparts (List.mem_append_left _ s.mem_parts_self)
  rcases hfailed with ⟨e, he, herr⟩ | ⟨e, he, hfails⟩
  · exact explains_of_eval (he ▸ hs) herr
  · cases hfails with
    | expression herr =>
      exact explains_of_eval (List.Subset.trans (Stmt.nodes_subset_of_condition? he) hs) herr
    | kind hv hkind => exact .condition hpart he hv hkind

namespace Mismatch

/-- Words for an operator in the wrong family, and for a number that is none. -/
def IsDefensive (details : String) : Prop :=
  (∃ op : Operator, details = "'" ++ op.sign ++ "' is not an arithmetic operator" ∨
      details = "'" ++ op.sign ++ "' is not a comparison operator") ∨
    ∃ found : String, details = "expected a number, found " ++ found

/-- Such words start with a quote or an `e`. -/
theorem IsDefensive.head? {details : String} (h : IsDefensive details) :
    details.toList.head? = some '\'' ∨ details.toList.head? = some 'e' := by
  rcases h with ⟨op, rfl | rfl⟩ | ⟨found, rfl⟩
  · left; simp [String.toList_append]
  · left; simp [String.toList_append]
  · right; simp [String.toList_append]

/-- Whether the mismatch is one of operands, of a negation or of a condition. -/
def isMet : Mismatch → Bool
  | .booleanAddition | .operands _ _ _ | .incomparable _ _ | .notNegatable _
  | .notCondition _ => true
  | .notArithmetic _ | .notComparison _ | .notNumber _ | .described _ => false

/-- The words of these mismatches start with an `a`, a `u` or a `c`. -/
theorem head?_details_of_isMet {cause : Mismatch} (h : cause.isMet = true) :
    ∃ a, cause.details.toList.head? = some a ∧ a ≠ '\'' ∧ a ≠ 'e' := by
  cases cause with
  | booleanAddition => exact ⟨'a', rfl, by decide, by decide⟩
  | operands op k k' =>
    refine ⟨'u', ?_, by decide, by decide⟩
    show ("unsupported operand kinds for '" ++ op.sign ++ "': " ++ k.text ++ " and " ++
      k'.text).toList.head? = _
    simp [String.toList_append]
  | incomparable k k' =>
    refine ⟨'c', ?_, by decide, by decide⟩
    show ("cannot compare " ++ k.text ++ " with " ++ k'.text).toList.head? = _
    simp [String.toList_append]
  | notNegatable k =>
    refine ⟨'c', ?_, by decide, by decide⟩
    show ("cannot negate a " ++ k.text).toList.head? = _
    simp [String.toList_append]
  | notCondition k =>
    refine ⟨'c', ?_, by decide, by decide⟩
    show ("condition must be a boolean, found " ++ k.text).toList.head? = _
    simp [String.toList_append]
  | notArithmetic | notComparison | notNumber | described => cases h

/-- The words for what is met are never the defensive ones. -/
theorem not_isDefensive_of_isMet {cause : Mismatch} (h : cause.isMet = true) :
    ¬ IsDefensive cause.details := by
  intro hdefensive
  obtain ⟨a, hhead, hquote, he⟩ := head?_details_of_isMet h
  rcases hdefensive.head? with hfirst | hfirst
  · exact hquote (Option.some.inj (hhead.symm.trans hfirst))
  · exact he (Option.some.inj (hhead.symm.trans hfirst))

end Mismatch

/-- Operands that do not fit an operator are a mismatch that is met. -/
theorem Operator.isMet_mismatch (op : Operator) (k k' : Kind) :
    (op.mismatch k k').isMet = true := by
  unfold mismatch
  split
  · rfl
  · split <;> rfl

/-- Every mismatch that a program explains is one that is met. -/
theorem Program.Explains.isMet {p : Program} {c : Context} {err : RuntimeError}
    {cause : Mismatch} (h : p.Explains c err) (hcause : err.val = .typeMismatch cause) :
    cause.isMet = true := by
  cases h with
  | operands =>
    rw [← RuntimeFault.typeMismatch.inj hcause]
    exact Operator.isMet_mismatch _ _ _
  | negation | condition =>
    rw [← RuntimeFault.typeMismatch.inj hcause]
    rfl
  | unbound | zeroDivisor | outOfRange | negationOutOfRange => cases hcause

/-- **Runtime errors point at the node that failed.**  A run that fails has a node on
the line of its error that explains it: with the variables left behind, this node
fails with that fault.  And a mismatch is never told in words that are kept for an
operator in the wrong family or for a number that is none. -/
theorem Program.run_error_explained {limit : Nat} {p : Program} {st st' : State}
    {err : RuntimeError} (h : p.run limit st = some (.failed err st')) :
    p.Explains st'.context err ∧
      ∀ cause, err.val = .typeMismatch cause → ¬ Mismatch.IsDefensive cause.details := by
  have hexplains := explains_of_run h
  exact ⟨hexplains, fun cause hcause =>
    Mismatch.not_isDefensive_of_isMet (hexplains.isMet hcause)⟩

/-- A loop whose condition is a string in the second round.  Another loop, on line 1,
and a condition on line 5 are not to blame. -/
theorem Program.run_error_explained_secondRound :
    let p : Program := [.loop (.literal (.bool false) 1) (.block [] 1) 1,
      .loop (.var "x" 2) (.block [.print (.negate (.literal (.integer 1) 3) 3) 3,
        .ifThen (.var "x" 5) (.assign "x" (.literal (.str "no") 5) 5) 5] 2) 2]
    ∃ st, p.run 3 ⟨Context.empty.set "x" (.bool true), #[]⟩ =
        some (.failed ⟨.typeMismatch (.notCondition .string), 2⟩ st) ∧
      st.output = #["-1"] ∧ p.Explains st.context ⟨.typeMismatch (.notCondition .string), 2⟩ ∧
        ∀ cause, RuntimeFault.typeMismatch (.notCondition .string) = .typeMismatch cause →
          ¬ Mismatch.IsDefensive cause.details := by
  intro p
  have hrun : ∃ st, p.run 3 ⟨Context.empty.set "x" (.bool true), #[]⟩ =
        some (.failed ⟨.typeMismatch (.notCondition .string), 2⟩ st) ∧ st.output = #["-1"] :=
    ⟨_, rfl, rfl⟩
  obtain ⟨st, hst, houtput⟩ := hrun
  exact ⟨st, hst, houtput, run_error_explained hst⟩

end FlatScript
