/-
# What a run writes and what it reads

A run changes only what its program says.  It adds to the printed lines and to the
variables, assigns to no name but the targets of the program, and moves no
variable (`Program.run_framed`):

| | before the run | after it |
| --- | --- | --- |
| printed lines | `o` | `o` and then more |
| names | `xs` | `xs` and then some targets |
| value of a name that is no target | `v` | `v` |

And a run depends only on what its program reads.  From two states that give the
same values to the variables that occur in the program, both runs end or neither
does, and they print the same lines and fail with the same error.  Each variable
has then the same value after both, or after each the value that it had before
(`Program.run_of_same_reads`).

Both are facts about one step of the machine, and a run is a number of steps.
-/

import FlatScript.Proofs.Machine

namespace FlatScript

/-- What may have happened between two states if only `targets` were assigned to. -/
structure State.Frame (targets : List String) (st st' : State) : Prop where
  /-- Printed lines stay. -/
  output : st.output.toList <+: st'.output.toList
  /-- Variables stay, and stay in their places. -/
  names : st.context.names <+: st'.context.names
  /-- Only targets are added. -/
  added : ∀ x ∈ st'.context.names, x ∉ st.context.names → x ∈ targets
  /-- Only targets change. -/
  kept : ∀ x, x ∉ targets → st'.context.get? x = st.context.get? x

namespace State.Frame

variable {xs : List String} {st st₁ st₂ : State}

theorem refl (xs : List String) (st : State) : Frame xs st st where
  output := List.prefix_rfl
  names := List.prefix_rfl
  added _ hx hnew := absurd hx hnew
  kept _ _ := rfl

/-- One frame after the other is a frame. -/
theorem trans (h : Frame xs st st₁) (h' : Frame xs st₁ st₂) : Frame xs st st₂ where
  output := h.output.trans h'.output
  names := h.names.trans h'.names
  added x hx hnew := by
    by_cases hmid : x ∈ st₁.context.names
    · exact h.added x hmid hnew
    · exact h'.added x hx hmid
  kept x hx := (h'.kept x hx).trans (h.kept x hx)

/-- Printing only adds to the output. -/
theorem print (xs : List String) (st : State) (text : String) : Frame xs st (st.print text) where
  output := by
    rw [State.print, Array.toList_push]
    exact List.prefix_append _ _
  names := List.prefix_rfl
  added _ hx hnew := absurd hx hnew
  kept _ _ := rfl

/-- Setting a target is what a frame allows. -/
theorem assign {x : String} (hx : x ∈ xs) (st : State) (v : Value) :
    Frame xs st (st.assign x v) where
  output := List.prefix_rfl
  names := by
    rw [State.assign, Context.names_set]
    split
    · exact List.prefix_rfl
    · exact List.prefix_append _ _
  added y hy hnew := by
    rw [State.assign, Context.names_set] at hy
    split at hy
    · exact absurd hy hnew
    · rcases List.mem_append.1 hy with hy | hy
      · exact absurd hy hnew
      · rwa [List.mem_singleton.1 hy]
  kept y hy := by
    have hne : y ≠ x := fun h => hy (h ▸ hx)
    rw [State.assign, Context.get?_set, if_neg hne]

end State.Frame

/-- **A step changes only what its statement says.** -/
theorem Machine.Step.framed {xs : List String} {a b : Config} (h : Step a b)
    (hxs : Stmt.targetsOf a.rest ⊆ xs) : State.Frame xs a.state b.state := by
  cases h with
  | @print e n k st v he => exact .print xs st v.text
  | @assign x e n k st v he => exact .assign (hxs List.mem_cons_self) st v
  | _ => exact .refl xs _

/-- **A run changes only what its program says**, done or failed and however often
its loops went round: printed lines stay in front, no variable is removed or
moved, a new one is the target of an assignment, and a variable that is no target
keeps its value. -/
theorem Program.run_framed {limit : Nat} {p : Program} {st : State} {ending : Ending}
    (h : p.run limit st = some ending) :
    State.Frame (Stmt.targetsOf p) st ending.state := by
  let inv (cfg : Machine.Config) : Prop :=
    Stmt.targetsOf cfg.rest ⊆ Stmt.targetsOf p ∧
      State.Frame (Stmt.targetsOf p) st cfg.state
  have hstep : ∀ a b, Machine.Step a b → inv a → inv b := fun a b hab ha =>
    ⟨List.Subset.trans hab.targets_subset ha.1, ha.2.trans (hab.framed ha.1)⟩
  obtain ⟨cfg, hcfg, hstops⟩ := Machine.exists_stops_of_run hstep h ⟨List.Subset.refl _, .refl _ st⟩
  rw [hstops.state_eq]
  exact hcfg.2

/-- A loop that assigns to an old variable, to a new one and, in a branch that is
never taken, to `z`, and then fails in its third round. -/
theorem Program.run_framed_failing :
    let p : Program := [.loop (.binary .less (.var "n" 1) (.literal (.integer 9) 1) 1)
      (.block [.assign "y" (.var "n" 2) 2,
        .ifThen (.binary .equal (.var "n" 3) (.literal (.integer 2) 3) 3)
          (.assign "z" (.var "missing" 4) 4) 3,
        .assign "n" (.binary .add (.var "n" 5) (.literal (.integer 1) 5) 5) 5,
        .print (.var "y" 6) 6] 1) 1]
    let c := (Context.empty.set "n" (.integer 0)).set "k" (.bool true)
    ∃ st, p.run 5 ⟨c, #["before"]⟩ = some (.failed ⟨.undefinedVariable "missing", 4⟩ st) ∧
      st.context.names = ["n", "k", "y"] ∧ st.output = #["before", "0", "1"] ∧
        State.Frame ["y", "z", "n"] ⟨c, #["before"]⟩ st := by
  intro p c
  have hrun : ∃ st, p.run 5 ⟨c, #["before"]⟩ =
        some (.failed ⟨.undefinedVariable "missing", 4⟩ st) ∧
      st.context.names = ["n", "k", "y"] ∧ st.output = #["before", "0", "1"] :=
    ⟨_, rfl, rfl, rfl⟩
  obtain ⟨st, hst, hnames, houtput⟩ := hrun
  exact ⟨st, hst, hnames, houtput, run_framed hst⟩

/-- The two contexts give the same values to the variables among the expressions. -/
def Context.AgreeOn (es : List Expr) (c d : Context) : Prop :=
  ∀ x n, .var x n ∈ es → c.get? x = d.get? x

/-- Contexts that agree on some expressions agree on fewer. -/
theorem Context.AgreeOn.mono {es es' : List Expr} {c d : Context} (h : AgreeOn es c d)
    (hsub : es' ⊆ es) : AgreeOn es' c d :=
  fun x n hm => h x n (hsub hm)

/-- **The value of an expression depends only on the variables in it.** -/
theorem Expr.eval_of_agreeOn {c d : Context} {e : Expr} (h : Context.AgreeOn e.nodes c d) :
    e.eval c = e.eval d := by
  induction e with
  | literal v n => rfl
  | var x n =>
    have hx : c.get? x = d.get? x := h x n List.mem_cons_self
    rw [eval, eval, Context.lookup, Context.lookup, hx]
  | negate e n ih =>
    have he : e.nodes ⊆ (negate e n).nodes := List.subset_append_left _ _
    rw [eval, eval, ih (h.mono he)]
  | binary op l r n ihl ihr =>
    have hl : l.nodes ⊆ (binary op l r n).nodes := List.subset_append_left _ _
    have hr : r.nodes ⊆ (binary op l r n).nodes :=
      List.Subset.trans (List.subset_append_left _ _) (List.subset_append_right _ _)
    rw [eval, eval, ihl (h.mono hl), ihr (h.mono hr)]

/-- Two states on the way from `a` and from `b`: the same lines were printed since
then, and each variable has the same value in both, or in each the value that it
had there. -/
structure State.Paired (a b st st' : State) : Prop where
  output : ∃ printed, st.output = a.output ++ printed ∧ st'.output = b.output ++ printed
  values : ∀ x, st.context.get? x = st'.context.get? x ∨
    st.context.get? x = a.context.get? x ∧ st'.context.get? x = b.context.get? x

namespace State.Paired

variable {a b st st' : State}

/-- A pair of runs starts as it is. -/
theorem start (a b : State) : Paired a b a b where
  output := ⟨#[], by simp, by simp⟩
  values _ := .inr ⟨rfl, rfl⟩

/-- Both runs print the same text. -/
theorem print (h : Paired a b st st') (text : String) :
    Paired a b (st.print text) (st'.print text) where
  output := by
    obtain ⟨printed, hst, hst'⟩ := h.output
    refine ⟨printed.push text, ?_, ?_⟩
    · rw [State.print, hst, Array.append_push]
    · rw [State.print, hst', Array.append_push]
  values := h.values

/-- Both runs set the same variable to the same value. -/
theorem assign (h : Paired a b st st') (x : String) (v : Value) :
    Paired a b (st.assign x v) (st'.assign x v) where
  output := h.output
  values y := by
    simp only [State.assign, Context.get?_set]
    by_cases hy : y = x
    · exact .inl (by rw [if_pos hy, if_pos hy])
    · rw [if_neg hy, if_neg hy]
      exact h.values y

/-- Variables that were the same at the start are the same on the way. -/
theorem agreeOn (h : Paired a b st st') {es : List Expr}
    (hreads : Context.AgreeOn es a.context b.context) :
    Context.AgreeOn es st'.context st.context := by
  intro x n hm
  rcases h.values x with hsame | ⟨hst, hst'⟩
  · exact hsame.symm
  · rw [hst, hst', hreads x n hm]

/-- Paired runs evaluate an expression that they read alike to the same. -/
theorem eval_eq (h : Paired a b st st') {es : List Expr}
    (hreads : Context.AgreeOn es a.context b.context) {e : Expr} (he : e.nodes ⊆ es) :
    e.eval st'.context = e.eval st.context :=
  Expr.eval_of_agreeOn ((h.agreeOn hreads).mono he)

/-- A condition that fails one of two paired runs fails the other in the same way. -/
theorem conditionFails (h : Paired a b st st') {es : List Expr}
    (hreads : Context.AgreeOn es a.context b.context) {e : Expr} (he : e.nodes ⊆ es) {n : Nat}
    {err : RuntimeError} (hfails : Machine.ConditionFails e n st.context err) :
    Machine.ConditionFails e n st'.context err := by
  have heval := h.eval_eq hreads he
  cases hfails with
  | expression herr => exact .expression (heval.trans herr)
  | kind hv hkind => exact .kind (heval.trans hv) hkind

end State.Paired

namespace Machine

variable {a b st st' : State} {k : List Stmt} {cfg : Config} {ending : Ending}

/-- The condition of a statement that has one is read first. -/
theorem condition_subset_nodesOf {c : Expr} {es : List Expr} :
    c.nodes ⊆ (c.nodes ++ es) ++ Stmt.nodesOf k :=
  List.Subset.trans (List.subset_append_left _ es) (List.subset_append_left _ _)

/-- **A step in one of two paired states is a step in the other**, and leads to
paired states. -/
theorem Step.paired (h : Step ⟨k, st⟩ cfg) (hpaired : State.Paired a b st st')
    (hreads : Context.AgreeOn (Stmt.nodesOf k) a.context b.context) :
    ∃ st₁, Step ⟨k, st'⟩ ⟨cfg.rest, st₁⟩ ∧ State.Paired a b cfg.state st₁ := by
  cases h with
  | @print e n k _ v he =>
    have he' := (hpaired.eval_eq hreads (List.subset_append_left _ _)).trans he
    exact ⟨_, .print he', hpaired.print v.text⟩
  | @assign x e n k _ v he =>
    have he' := (hpaired.eval_eq hreads (List.subset_append_left _ _)).trans he
    exact ⟨_, .assign he', hpaired.assign x v⟩
  | ifThen hc =>
    have hc' := (hpaired.eval_eq hreads condition_subset_nodesOf).trans hc
    exact ⟨st', .ifThen hc', hpaired⟩
  | ifSkip hc =>
    have hc' := (hpaired.eval_eq hreads condition_subset_nodesOf).trans hc
    exact ⟨st', .ifSkip hc', hpaired⟩
  | ifElse hc =>
    have hc' := (hpaired.eval_eq hreads condition_subset_nodesOf).trans hc
    exact ⟨st', .ifElse hc', hpaired⟩
  | orElse hc =>
    have hc' := (hpaired.eval_eq hreads condition_subset_nodesOf).trans hc
    exact ⟨st', .orElse hc', hpaired⟩
  | loop hc =>
    have hc' := (hpaired.eval_eq hreads condition_subset_nodesOf).trans hc
    exact ⟨st', .loop hc', hpaired⟩
  | exit hc =>
    have hc' := (hpaired.eval_eq hreads condition_subset_nodesOf).trans hc
    exact ⟨st', .exit hc', hpaired⟩
  | block => exact ⟨st', .block, hpaired⟩

/-- Where the machine stops in one of two paired states, it stops in the other, and
for the same reason. -/
theorem Stops.paired (h : Stops ⟨k, st⟩ ending) (hpaired : State.Paired a b st st')
    (hreads : Context.AgreeOn (Stmt.nodesOf k) a.context b.context) :
    ∃ ending', Stops ⟨k, st'⟩ ending' ∧ ending.error? = ending'.error? ∧
      State.Paired a b ending.state ending'.state := by
  cases h with
  | done => exact ⟨_, .done, rfl, hpaired⟩
  | print he =>
    have he' := (hpaired.eval_eq hreads (List.subset_append_left _ _)).trans he
    exact ⟨_, .print he', rfl, hpaired⟩
  | assign he =>
    have he' := (hpaired.eval_eq hreads (List.subset_append_left _ _)).trans he
    exact ⟨_, .assign he', rfl, hpaired⟩
  | ifThen hc =>
    have hc' := hpaired.conditionFails hreads condition_subset_nodesOf hc
    exact ⟨_, .ifThen hc', rfl, hpaired⟩
  | ifElse hc =>
    have hc' := hpaired.conditionFails hreads condition_subset_nodesOf hc
    exact ⟨_, .ifElse hc', rfl, hpaired⟩
  | loop hc =>
    have hc' := hpaired.conditionFails hreads condition_subset_nodesOf hc
    exact ⟨_, .loop hc', rfl, hpaired⟩

/-- **A run from one of two paired states has its like from the other.** -/
theorem Halts.paired (h : Halts cfg ending) (hpaired : State.Paired a b cfg.state st')
    (hreads : Context.AgreeOn (Stmt.nodesOf cfg.rest) a.context b.context) :
    ∃ ending', Halts ⟨cfg.rest, st'⟩ ending' ∧ ending.error? = ending'.error? ∧
      State.Paired a b ending.state ending'.state := by
  obtain ⟨last, hsteps, hstops⟩ := h
  induction hsteps using Relation.ReflTransGen.head_induction_on generalizing st' with
  | refl =>
    obtain ⟨ending', hstops', hsame⟩ := hstops.paired hpaired hreads
    exact ⟨ending', ⟨_, .refl, hstops'⟩, hsame⟩
  | head hstep _ ih =>
    obtain ⟨st₁, hstep', hpaired₁⟩ := hstep.paired hpaired hreads
    obtain ⟨ending', hhalts, hsame⟩ := ih hpaired₁ (hreads.mono hstep.nodes_subset)
    exact ⟨ending', .of_steps (.single hstep') hhalts, hsame⟩

end Machine

namespace Program

/-- A program runs to one ending only, whatever the limits. -/
theorem run_unique {limit limit' : Nat} {p : Program} {st : State} {ending ending' : Ending}
    (h : p.run limit st = some ending) (h' : p.run limit' st = some ending') :
    ending = ending' := by
  have hmax := Stmt.runAll_mono (Nat.le_max_left limit limit') p st ending h
  have hmax' := Stmt.runAll_mono (Nat.le_max_right limit limit') p st ending' h'
  exact Option.some.inj (hmax.symm.trans hmax')

/-- What ends from one state ends from another that gives the same values to the
variables of the program, and in a like way. -/
theorem exists_run_paired {limit : Nat} {p : Program} {a b : State} {ending : Ending}
    (hreads : Context.AgreeOn p.nodes a.context b.context) (h : p.run limit a = some ending) :
    ∃ limit' ending', p.run limit' b = some ending' ∧ ending.error? = ending'.error? ∧
      State.Paired a b ending.state ending'.state := by
  obtain ⟨ending', hhalts, hsame⟩ := (Machine.halts_of_run h).paired (.start a b) hreads
  obtain ⟨limit', hrun⟩ := hhalts.exists_runAll
  exact ⟨limit', ending', hrun, hsame⟩

/-- **A run depends only on the variables that it reads.**  From two states that
give the same values to the variables that occur in the program, it ends or it
does not.  If it does, it ends with the same error or with none, has printed the
same lines, and each variable has the same value after both runs, or after each
the value that it had before. -/
theorem run_of_same_reads {p : Program} {a b : State}
    (hreads : ∀ x n, .var x n ∈ p.nodes → a.context.get? x = b.context.get? x) :
    ((∃ limit ending, p.run limit a = some ending) ↔
        ∃ limit ending, p.run limit b = some ending) ∧
      ∀ limit limit' ending ending', p.run limit a = some ending →
        p.run limit' b = some ending' →
          ending.error? = ending'.error? ∧ State.Paired a b ending.state ending'.state := by
  have hreads' : Context.AgreeOn p.nodes b.context a.context :=
    fun x n hm => (hreads x n hm).symm
  refine ⟨⟨?_, ?_⟩, fun limit limit' ending ending' h h' => ?_⟩
  · rintro ⟨limit, ending, h⟩
    obtain ⟨limit', ending', h', -⟩ := exists_run_paired hreads h
    exact ⟨limit', ending', h'⟩
  · rintro ⟨limit, ending, h⟩
    obtain ⟨limit', ending', h', -⟩ := exists_run_paired hreads' h
    exact ⟨limit', ending', h'⟩
  · obtain ⟨_, ending₁, h₁, hsame⟩ := exists_run_paired hreads h
    rwa [run_unique h' h₁]

/-- Two runs of a loop, a branch that is not taken and a failing print.  Before
them, `n` is 2 in both states; one of them has `u`, which the branch would assign
to, and the other has `extra` in front and has printed a line. -/
theorem run_of_same_reads_shuffled :
    let p : Program := [.loop (.binary .greater (.var "n" 1) (.literal (.integer 0) 1) 1)
        (.block [.assign "s" (.binary .mul (.var "n" 2) (.var "n" 2) 2) 2, .print (.var "s" 3) 3,
          .assign "n" (.binary .sub (.var "n" 4) (.literal (.integer 1) 4) 4) 4] 1) 1,
      .ifThen (.binary .equal (.var "n" 5) (.literal (.integer 1) 5) 5)
        (.assign "u" (.var "n" 6) 6) 5,
      .print (.var "missing" 7) 7]
    let a : State := ⟨(Context.empty.set "n" (.integer 2)).set "u" (.str "old"), #[]⟩
    let b : State := ⟨(Context.empty.set "extra" (.bool true)).set "n" (.integer 2), #["line"]⟩
    (∀ x n, .var x n ∈ p.nodes → a.context.get? x = b.context.get? x) ∧
      ∃ st st', p.run 4 a = some (.failed ⟨.undefinedVariable "missing", 7⟩ st) ∧
        p.run 4 b = some (.failed ⟨.undefinedVariable "missing", 7⟩ st') ∧
          st.context.names = ["n", "u", "s"] ∧ st'.context.names = ["extra", "n", "s"] ∧
            st'.output = #["line", "4", "1"] ∧ State.Paired a b st st' := by
  intro p a b
  have hreads : ∀ x n, .var x n ∈ p.nodes → a.context.get? x = b.context.get? x := by
    have hall : (p.nodes.all fun e => match e with
        | .var x _ => a.context.get? x = b.context.get? x
        | _ => true) = true := by decide +kernel
    intro x n hm
    simpa using List.all_eq_true.1 hall _ hm
  have hruns : ∃ st st', p.run 4 a = some (.failed ⟨.undefinedVariable "missing", 7⟩ st) ∧
      p.run 4 b = some (.failed ⟨.undefinedVariable "missing", 7⟩ st') ∧
        st.context.names = ["n", "u", "s"] ∧ st'.context.names = ["extra", "n", "s"] ∧
          st'.output = #["line", "4", "1"] :=
    ⟨_, _, rfl, rfl, rfl, rfl, rfl⟩
  obtain ⟨st, st', hst, hst', hnames, hnames', houtput⟩ := hruns
  have hpaired := ((run_of_same_reads hreads).2 4 4 _ _ hst hst').2
  exact ⟨hreads, st, st', hst, hst', hnames, hnames', houtput, hpaired⟩

end Program
end FlatScript
