/-
# What a session can hold

However a session is used, its variables stay regular: their names are distinct
identifiers that are no words of the language, their strings have no quotes and
their floats are finite (`Session.context_regular`).

The argument follows a script through the language.  The tokens of a source hold
only names and regular literals, and so does the program that they make
(`Program.regular_of_parse`).  A step of the machine takes from the program and
gives to the variables, and leaves both regular (`Machine.Step.regular`), so a
run does, also one that fails.
-/

import FlatScript.Proofs.Machine
import FlatScript.Proofs.Regular
import FlatScript.Session

namespace FlatScript

/-- The literals of a program are regular, and it assigns only to names. -/
structure Program.Regular (p : Program) : Prop where
  literals : ∀ v n, .literal v n ∈ p.nodes → v.Regular
  targets : ∀ x ∈ Stmt.targetsOf p, IsName x

/-- **A source makes only regular programs.** -/
theorem Program.regular_of_parse {source : String} {p : Program}
    (h : parse (tokensOf source) = .ok p) : p.Regular := by
  have hsupplied := supplied_of_parse h
  constructor
  · intro v n hm
    obtain ⟨t, ht, hv⟩ := hsupplied.literals v n hm
    obtain ⟨w, hreads⟩ := exists_reads_of_mem_tokensOf ht
    exact hreads.regular hv
  · intro x hx
    obtain ⟨t, ht, hname⟩ := hsupplied.names x hx
    obtain ⟨w, hreads⟩ := exists_reads_of_mem_tokensOf ht
    rw [hname] at hreads
    exact hreads.isName

namespace Machine

/-- What is left to run is regular, and so are the variables. -/
structure Config.Regular (cfg : Config) : Prop where
  rest : Program.Regular cfg.rest
  context : cfg.state.context.Regular

/-- **A step keeps a configuration regular.** -/
theorem Step.regular {a b : Config} (h : Step a b) (ha : a.Regular) : b.Regular := by
  refine ⟨⟨fun v n hm => ?_, fun x hx => ?_⟩, ?_⟩
  · exact ha.rest.literals v n (h.nodes_subset hm)
  · exact ha.rest.targets x (h.targets_subset hx)
  · cases h with
    | @assign x e n k st v he =>
      have hx : IsName x := ha.rest.targets x List.mem_cons_self
      have hv : v.Regular := Expr.regular_eval ha.context
        (fun u m hm => ha.rest.literals u m (List.mem_append_left _ hm)) he
      exact ha.context.set hx hv
    | _ => exact ha.context

end Machine

/-- A run of a regular program leaves regular variables, done or failed. -/
theorem Program.Regular.run {limit : Nat} {p : Program} {st : State} {ending : Ending}
    (hp : p.Regular) (hst : st.context.Regular) (h : p.run limit st = some ending) :
    ending.state.context.Regular := by
  obtain ⟨cfg, hcfg, hstops⟩ :=
    Machine.exists_stops_of_run (fun _ _ hstep ha => hstep.regular ha) h ⟨hp, hst⟩
  rw [hstops.state_eq]
  exact hcfg.context

/-- **A script leaves regular variables**, whether it succeeds, does not parse or
fails while running. -/
theorem Script.regular_execute {limit : Nat} {source : String} {c : Context} {x : Execution}
    (hc : c.Regular) (h : execute limit source c = some x) : x.state.context.Regular := by
  cases hp : Program.parse (tokensOf source) with
  | error e =>
    rw [execute_of_parse_error limit c hp] at h
    obtain rfl := Option.some.inj h
    exact hc
  | ok p =>
    rw [execute_of_parse_ok limit c hp] at h
    obtain ⟨ending, hrun, rfl⟩ := Option.map_eq_some_iff.1 h
    exact (Program.regular_of_parse hp).run hc hrun

namespace Session

/-- What can be done with a session: run a source, forget all variables, or take
the variables out and start a session from them. -/
inductive Action where
  | run (limit : Nat) (source : String)
  | reset
  | rewrap

/-- The session after an action; none if a run does not end within its limit. -/
def act (s : Session) : Action → Option Session
  | .run limit source => (s.run limit source).map Prod.snd
  | .reset => some s.reset
  | .rewrap => some ⟨s.context⟩

/-- The session after actions, in order. -/
def replay (s : Session) : List Action → Option Session
  | [] => some s
  | a :: rest => (s.act a).bind fun s' => s'.replay rest

/-- An action keeps the variables regular. -/
theorem regular_act {s s' : Session} {a : Action} (hs : s.context.Regular)
    (h : s.act a = some s') : s'.context.Regular := by
  cases a with
  | run limit source =>
    obtain ⟨⟨x, s''⟩, hrun, rfl⟩ := Option.map_eq_some_iff.1 h
    obtain ⟨x', hx, hpair⟩ := Option.map_eq_some_iff.1 hrun
    obtain ⟨rfl, rfl⟩ := Prod.mk.inj hpair
    exact Script.regular_execute hs hx
  | reset =>
    obtain rfl := Option.some.inj h
    exact Context.regular_empty
  | rewrap =>
    obtain rfl := Option.some.inj h
    exact hs

/-- A history keeps the variables regular. -/
theorem regular_replay {history : List Action} {s s' : Session} (hs : s.context.Regular)
    (h : s.replay history = some s') : s'.context.Regular := by
  induction history generalizing s with
  | nil =>
    obtain rfl := Option.some.inj h
    exact hs
  | cons a rest ih =>
    obtain ⟨s₁, hact, hrest⟩ := Option.bind_eq_some_iff.1 h
    exact ih (regular_act hs hact) hrest

/-- **Whatever is done with a session, its variables are regular**: their names
are distinct identifiers and no words of the language, their strings have no
quotes, and their floats are finite. -/
theorem context_regular {history : List Action} {s : Session}
    (h : fresh.replay history = some s) : s.context.Regular :=
  regular_replay Context.regular_empty h

/-- A history with a run that succeeds, one that does not parse and one that fails
after it has changed variables. -/
def mixedHistory : List Action :=
  [.reset, .run 1 "x = 1.5; text = \"a\" + \"b\";", .run 1 "x = ;", .rewrap,
    .run 3 "n = 2; while (n > 0) \x7b x = -x / n; n = n - 1; \x7d; x = x / n; n = 7;"]

/-- The hypothesis of `context_regular` holds of `mixedHistory`. -/
theorem context_regular_mixedHistory :
    ∃ s, fresh.replay mixedHistory = some s ∧
      s.context.entries = [("x", .real 0.75), ("text", .str "ab"), ("n", .integer 0)] ∧
        s.context.Regular := by
  have hreplay : (fresh.replay mixedHistory).map (fun s => s.context.entries) =
      some [("x", .real 0.75), ("text", .str "ab"), ("n", .integer 0)] := by decide +kernel
  obtain ⟨s, hs, hentries⟩ := Option.map_eq_some_iff.1 hreplay
  exact ⟨s, hs, hentries, context_regular hs⟩

end Session
end FlatScript
