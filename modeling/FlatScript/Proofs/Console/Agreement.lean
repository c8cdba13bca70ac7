/-
# The console agrees with whole scripts

Lines typed one after the other are also one source, a newline after each line.
If that source has no faults and runs to its end, the console prints what it
prints and ends with its variables, however the statements are spread over the
lines (`Repl.drive_agrees`).

The console cuts the source where its buffer is complete.  `Runs limit a c st`
is what it keeps to: the rest of the source, buffer included, has no faults and
runs from the variables `c` to its end.  One line either changes nothing
(`Runs.after_blank`), or goes to the buffer, or completes it, and then the
source runs in two parts (`Runs.cut`).
-/

import FlatScript.Proofs.Console.Complete
import FlatScript.Proofs.Relining.Parsing

namespace FlatScript

/-- The source has no faults, and runs from the variables `c` to its end. -/
structure Runs (limit : Nat) (source : String) (c : Context) (st : State) : Prop where
  faultless : lexErrorsOf source = []
  runs : ∃ p, Program.parse (tokensOf source) = .ok p ∧ p.run limit ⟨c, #[]⟩ = some (.done st)

namespace Runs

variable {limit : Nat} {source a b : String} {c : Context} {st : State}

/-- An execution without an error is a run to the end. -/
theorem of_execute {x : Execution} (hlex : lexErrorsOf source = [])
    (h : Script.execute limit source c = some x) (hok : x.error? = none) :
    Runs limit source c x.state :=
  ⟨hlex, Script.exists_run_of_execute h hok⟩

/-- A run to the end is an execution without an error, and there is nothing to say
of it unless it has no tokens. -/
theorem execute (h : Runs limit source c st) (hne : tokensOf source ≠ []) :
    Script.execute limit source c = some ⟨none, st, []⟩ := by
  obtain ⟨p, hp, hrun⟩ := h.runs
  have hremarks : p.remarks = [] := by
    rcases Program.eq_nil_or_concat_of_parse hp with ⟨hnil, -⟩ | ⟨hp', -⟩
    · exact absurd hnil hne
    · simp [Program.remarks, hp']
  simp [Script.execute_of_parse_ok limit c hp, hrun, h.faultless, hremarks, Execution.ofEnding,
    Ending.error?, Ending.state]

/-- The rest of a source runs as it does after the part before it: the part, if it
was done, decides only the variables that the rest starts from. -/
theorem of_shift {k : Nat} {p : Program} {st₁ : State} (hlex : lexErrorsOf b = [])
    (hp : Program.parse ((tokensOf b).map (Located.shift k)) = .ok p)
    (hrun : p.run limit st₁ = some (.done st)) :
    ∃ st₂, Runs limit b st₁.context st₂ ∧ st = st₂.behind st₁.output := by
  obtain ⟨q, hq, rfl⟩ := Program.parse_shift_iff.1 hp
  rw [Program.run_reline] at hrun
  obtain ⟨ending, hending, hdone⟩ := Option.map_eq_some_iff.1 hrun
  cases ending with
  | done st₂ =>
    obtain rfl : State.behind st₁.output st₂ = st := Ending.done.inj hdone
    exact ⟨st₂, ⟨hlex, q, hq, hending⟩, rfl⟩
  | failed e st₂ => cases hdone

/-- A blank line in front changes nothing. -/
theorem after_blank (h : Runs limit (a ++ "\n" ++ b) c st)
    (ha : ∀ x ∈ a.toList, Text.blank.contains x = true) : Runs limit b c st := by
  have heven : a.toList.count '"' % 2 = 0 := by
    rw [List.count_eq_zero.2 (Segment.not_mem_of_forall ha (by decide))]
  have hlex := h.faultless
  rw [lexErrorsOf_append heven, List.append_eq_nil_iff, List.map_eq_nil_iff] at hlex
  have hblank : ∀ x ∈ (a ++ "\n").toList, Text.blank.contains x = true := by
    intro x hx
    rw [String.toList_append, List.mem_append] at hx
    rcases hx with hx | hx
    · exact ha x hx
    · obtain rfl : x = '\n' := by simpa using hx
      decide
  have htokens := (tokensOf_eq_nil_iff hlex.1).2 hblank
  obtain ⟨p, hp, hrun⟩ := h.runs
  rw [tokensOf_append heven, htokens, List.nil_append] at hp
  obtain ⟨st₂, hruns, rfl⟩ := of_shift hlex.2 hp hrun
  have hst : State.behind #[] st₂ = st₂ := by simp [State.behind]
  exact hst.symm ▸ hruns

/-- **A source runs in two parts, cut where the first of them is complete.** -/
theorem cut (h : Runs limit (a ++ "\n" ++ b) c st) (ha : Console.isComplete (a ++ "\n") = true) :
    tokensOf (a ++ "\n") ≠ [] ∧ ∃ st₁ st₂, Runs limit (a ++ "\n") c st₁ ∧
      Runs limit b st₁.context st₂ ∧ st = st₂.behind st₁.output := by
  have heven : a.toList.count '"' % 2 = 0 := by
    simpa using Console.even_quotes_of_isComplete ha
  have hlex := h.faultless
  rw [lexErrorsOf_append heven, List.append_eq_nil_iff, List.map_eq_nil_iff] at hlex
  obtain ⟨-, hdepth, us, n, hlast⟩ := (Console.isComplete_iff hlex.1).1 ha
  have hus : braceDepth us ≤ 0 := by
    rw [hlast] at hdepth
    simpa [Token.brace] using hdepth
  obtain ⟨p, hp, hrun⟩ := h.runs
  rw [tokensOf_append heven, hlast] at hp
  obtain ⟨p₁, p₂, rfl, hp₁, hp₂⟩ := Program.parse_append hp hus
  rw [← hlast] at hp₁
  have happend := Stmt.runAll_append limit p₁ p₂ ⟨c, #[]⟩
  rw [← Program.run, hrun] at happend
  refine ⟨by simp [hlast], ?_⟩
  cases h₁ : Stmt.runAll limit p₁ ⟨c, #[]⟩ with
  | none => simp [h₁] at happend
  | some ending =>
    rw [h₁] at happend
    cases ending with
    | failed e st₁ => simp at happend
    | done st₁ =>
      obtain ⟨st₂, hruns, hst⟩ := of_shift hlex.2 hp₂ happend.symm
      exact ⟨st₁, st₂, ⟨hlex.1, p₁, hp₁, h₁⟩, hruns, hst⟩

end Runs

namespace Text

/-- Trimming takes only blanks away. -/
theorem mem_trim {cs : List Char} {x : Char} (h : x ∈ cs) (hx : blank.contains x = false) :
    x ∈ trim cs := by
  have hdrop : ∀ {ds : List Char}, x ∈ ds → x ∈ ds.dropWhile blank.contains := by
    intro ds hm
    rw [← List.takeWhile_append_dropWhile (p := blank.contains) (l := ds), List.mem_append] at hm
    refine hm.resolve_left fun htake => ?_
    rw [List.mem_takeWhile_imp htake] at hx
    cases hx
  rw [trim, trimEnd, List.mem_reverse]
  exact hdrop (List.mem_reverse.2 (hdrop h))

/-- Trimming adds nothing. -/
theorem mem_of_mem_trim {cs : List Char} {x : Char} (h : x ∈ trim cs) : x ∈ cs := by
  rw [trim, trimEnd, List.mem_reverse] at h
  have hm := List.mem_reverse.1 ((List.dropWhile_suffix _).mem h)
  exact (List.dropWhile_suffix _).mem hm

/-- Nothing is left of a text when it is blank. -/
theorem trim_eq_nil_iff {cs : List Char} :
    trim cs = [] ↔ ∀ x ∈ cs, blank.contains x = true := by
  constructor
  · intro h x hx
    cases hblank : blank.contains x with
    | true => rfl
    | false =>
      have hm := mem_trim hx hblank
      rw [h] at hm
      cases hm
  · intro h
    rw [trim, List.dropWhile_eq_nil_iff.2 h]
    rfl

end Text

namespace Console

/-- Whether the emission is a prompt. -/
def Emission.isPrompt : Emission → Bool
  | .prompt _ => true
  | _ => false

/-- Lines that are printed are no prompts. -/
theorem filter_printed (lines : List String) :
    (lines.map Emission.printed).filter (fun e => !e.isPrompt) = lines.map .printed := by
  refine List.filter_eq_self.2 fun e he => ?_
  obtain ⟨line, -, rfl⟩ := List.mem_map.1 he
  rfl

/-- The source that lines make, a newline after each. -/
def sourceOf : List String → String
  | [] => ""
  | l :: ls => l ++ "\n" ++ sourceOf ls

namespace Repl

/-- **What a line can be**: blank, a command, or more text for the buffer.  A
command has a colon and no quotes, and only an empty buffer looks out for one. -/
theorem feed_cases (limit : Nat) (r : Repl) (line : String) :
    (r.buffer = "" ∧ Text.trim line.toList = [] ∧
        r.feed limit line = some ([r.prompt], some r)) ∨
      (r.buffer = "" ∧ '"' ∉ Text.trim line.toList ∧ ':' ∈ Text.trim line.toList) ∨
        ((r.buffer ≠ "" ∨ Text.trim line.toList ≠ []) ∧
          r.feed limit line =
            (r.enter limit line).map fun (es, r') => (es ++ [r'.prompt], some r')) := by
  have htrim : ∀ {text : String}, String.ofList (Text.trim line.toList) = text →
      Text.trim line.toList = text.toList := by
    rintro _ rfl
    exact String.toList_ofList.symm
  unfold feed
  by_cases hb : r.buffer = ""
  · have hcommand : ∀ {text : String}, String.ofList (Text.trim line.toList) = text →
        '"' ∉ text.toList → ':' ∈ text.toList →
          r.buffer = "" ∧ '"' ∉ Text.trim line.toList ∧ ':' ∈ Text.trim line.toList := by
      intro text h hquote hcolon
      rw [htrim h]
      exact ⟨hb, hquote, hcolon⟩
    rw [if_pos (String.isEmpty_iff.2 hb)]
    split
    · rename_i h
      exact .inr (.inl (hcommand h (by decide) (by decide)))
    · rename_i h
      exact .inr (.inl (hcommand h (by decide) (by decide)))
    · rename_i h
      exact .inr (.inl (hcommand h (by decide) (by decide)))
    · rename_i h
      exact .inr (.inl (hcommand h (by decide) (by decide)))
    · rename_i h
      exact .inl ⟨hb, htrim h, rfl⟩
    · rename_i hblank
      refine .inr (.inr ⟨.inr fun h => hblank ?_, rfl⟩)
      rw [h]
  · rw [if_neg (mt String.isEmpty_iff.1 hb)]
    exact .inr (.inr ⟨.inl hb, rfl⟩)

/-- A line and then the others: what they show stands in this order. -/
theorem drive_cons {limit : Nat} {r r' : Repl} {line : String} {es later : List Emission}
    {rest : List (Except ReadFailure String)} {left : Option Repl}
    (hfeed : r.feed limit line = some (es, some r'))
    (hdrive : r'.drive limit rest = some (later, left)) :
    r.drive limit (.ok line :: rest) = some (es ++ later, left) := by
  simp only [drive, hfeed, hdrive, Option.map_some]

/-- A line that completes a source which runs to its end prints its lines, and
leaves its variables and an empty buffer. -/
theorem enter_of_isComplete {limit : Nat} {buffer line : String} {c : Context} {st : State}
    (hcomplete : isComplete (buffer ++ line ++ "\n") = true)
    (h : Runs limit (buffer ++ line ++ "\n") c st)
    (hne : tokensOf (buffer ++ line ++ "\n") ≠ []) :
    enter limit ⟨⟨c⟩, buffer⟩ line =
      some (st.output.toList.map .printed, ⟨⟨st.context⟩, ""⟩) := by
  have hrun : Session.run limit ⟨c⟩ (buffer ++ line ++ "\n") =
      some (⟨none, st, []⟩, ⟨st.context⟩) := by
    simp [Session.run, h.execute hne]
  simp [enter, hcomplete, hrun, shown]

/-- Any other line only goes to the buffer. -/
theorem enter_of_not_isComplete {limit : Nat} {session : Session} {buffer line : String}
    (h : isComplete (buffer ++ line ++ "\n") = false) :
    enter limit ⟨session, buffer⟩ line = some ([], ⟨session, buffer ++ line ++ "\n"⟩) := by
  simp [enter, h]

end Repl

/-- A buffer that waits for more: it is not complete, and it is not blank. -/
structure Waiting (buffer : String) : Prop where
  incomplete : isComplete buffer = false
  filled : ∃ x ∈ buffer.toList, Text.blank.contains x = false

/-- **A buffer that waits for more does not run**: a program that is not empty is
complete. -/
theorem Waiting.not_runs {limit : Nat} {buffer : String} {c : Context} {st : State}
    (h : Waiting buffer) : ¬ Runs limit buffer c st := by
  rintro ⟨hlex, p, hp, -⟩
  obtain ⟨x, hx, hblank⟩ := h.filled
  rcases Program.eq_nil_or_concat_of_parse hp with ⟨hnil, -⟩ | ⟨-, hlast⟩
  · have hx' := (tokensOf_eq_nil_iff hlex).1 hnil x hx
    rw [hblank] at hx'
    cases hx'
  · have hdepth : braceDepth (tokensOf buffer) ≤ 0 := Int.le_of_eq (Program.braceDepth_of_parse hp)
    have hcomplete := (isComplete_iff hlex).2 ⟨even_quotes_of_lexErrorsOf hlex, hdepth, hlast⟩
    rw [h.incomplete] at hcomplete
    cases hcomplete

/-- A line that is no blank starts a buffer, and every line goes on with one. -/
theorem waiting_of_incomplete {buffer line : String}
    (hb : buffer = "" ∨ Waiting buffer) (hne : buffer ≠ "" ∨ Text.trim line.toList ≠ [])
    (h : isComplete (buffer ++ line ++ "\n") = false) : Waiting (buffer ++ line ++ "\n") := by
  refine ⟨h, ?_⟩
  rcases hb with rfl | hb
  · have hline : ¬ ∀ x ∈ line.toList, Text.blank.contains x = true := by
      rw [← Text.trim_eq_nil_iff]
      exact hne.resolve_left fun hne => hne rfl
    simp only [not_forall, Bool.not_eq_true] at hline
    obtain ⟨x, hx, hblank⟩ := hline
    exact ⟨x, by simp [hx], hblank⟩
  · obtain ⟨x, hx, hblank⟩ := hb.filled
    exact ⟨x, by simp [hx], hblank⟩

/-- A line of a source without faults is no command. -/
theorem not_command {line rest : String} (h : lexErrorsOf (line ++ "\n" ++ rest) = [])
    (hquote : '"' ∉ Text.trim line.toList) : ':' ∉ Text.trim line.toList := by
  have hquote' : '"' ∉ line.toList := fun hm => hquote (Text.mem_trim hm (by decide))
  have heven : line.toList.count '"' % 2 = 0 := by rw [List.count_eq_zero.2 hquote']
  rw [lexErrorsOf_append heven, List.append_eq_nil_iff] at h
  have hcolon := colon_not_mem_of_lexErrorsOf h.1 (by simpa using hquote')
  exact fun hm => hcolon (by simp [Text.mem_of_mem_trim hm])

/-- **The console takes its source line by line to where the source takes the
variables**, and prints the same. -/
theorem Repl.drive_of_runs {limit : Nat} {ls : List String} {buffer : String} {c : Context}
    {st : State} (h : Runs limit (buffer ++ sourceOf ls) c st)
    (hb : buffer = "" ∨ Waiting buffer) :
    ∃ es, drive limit ⟨⟨c⟩, buffer⟩ (ls.map .ok) = some (es, some ⟨⟨st.context⟩, ""⟩) ∧
      es.filter (fun e => !e.isPrompt) = st.output.toList.map .printed := by
  induction ls generalizing buffer c st with
  | nil =>
    have hsource : buffer ++ sourceOf [] = buffer := String.append_empty
    rw [hsource] at h
    obtain rfl := hb.resolve_right fun hwaiting => hwaiting.not_runs h
    obtain ⟨p, hp, hrun⟩ := h.runs
    have htokens : tokensOf "" = [] := (tokensOf_eq_nil_iff h.faultless).2 (by simp)
    obtain ⟨-, rfl⟩ | ⟨-, us, n, hlast⟩ := Program.eq_nil_or_concat_of_parse hp
    · obtain rfl : ⟨c, #[]⟩ = st := by simpa [Program.run, Stmt.runAll] using hrun
      exact ⟨[], rfl, rfl⟩
    · rw [htokens] at hlast
      simp at hlast
  | cons l ls ih =>
    have hsource : buffer ++ sourceOf (l :: ls) = buffer ++ l ++ "\n" ++ sourceOf ls := by
      simp [sourceOf, String.append_assoc]
    rw [hsource] at h
    rcases feed_cases limit ⟨⟨c⟩, buffer⟩ l with
      ⟨rfl, hblank, hfeed⟩ | ⟨rfl, hquote, hcolon⟩ | ⟨hne, hfeed⟩
    · -- A blank line before the first statement of the rest.
      rw [String.empty_append] at h
      have hrest := h.after_blank (Text.trim_eq_nil_iff.1 hblank)
      rw [← String.empty_append (s := sourceOf ls)] at hrest
      obtain ⟨es, hdrive, hes⟩ := ih hrest (.inl rfl)
      exact ⟨_, drive_cons hfeed hdrive, hes⟩
    · rw [String.empty_append] at h
      exact absurd hcolon (not_command h.faultless hquote)
    · cases hcomplete : isComplete (buffer ++ l ++ "\n") with
      | true =>
        obtain ⟨htokens, st₁, st₂, hfirst, hrest, rfl⟩ := h.cut hcomplete
        rw [← String.empty_append (s := sourceOf ls)] at hrest
        obtain ⟨es, hdrive, hes⟩ := ih hrest (.inl rfl)
        simp only [enter_of_isComplete hcomplete hfirst htokens, Option.map_some] at hfeed
        refine ⟨_, drive_cons hfeed hdrive, ?_⟩
        rw [List.filter_append, List.filter_append, filter_printed, hes]
        simp [prompt, Emission.isPrompt, State.behind]
      | false =>
        have hwaiting := waiting_of_incomplete hb hne hcomplete
        obtain ⟨es, hdrive, hes⟩ := ih h (.inr hwaiting)
        rw [enter_of_not_isComplete hcomplete] at hfeed
        simp only [Option.map_some, List.nil_append] at hfeed
        exact ⟨_, drive_cons hfeed hdrive, hes⟩

/-- **The console agrees with whole scripts.**  Lines that make a source without
faults, which on its own runs to its end, make the console print exactly what
the source prints, say nothing else but its prompts, and end with the variables
of the source and an empty buffer. -/
theorem Repl.drive_agrees {limit : Nat} {ls : List String} {x : Execution}
    (hlex : lexErrorsOf (sourceOf ls) = [])
    (hx : Script.execute limit (sourceOf ls) .empty = some x) (hok : x.error? = none) :
    ∃ es, fresh.drive limit (ls.map .ok) = some (es, some ⟨⟨x.state.context⟩, ""⟩) ∧
      es.filter (fun e => !e.isPrompt) = x.state.output.toList.map .printed := by
  have hruns := Runs.of_execute hlex hx hok
  rw [← String.empty_append (s := sourceOf ls)] at hruns
  exact drive_of_runs hruns (.inl rfl)

/-- Lines with a string and a block spread over them, `else` at the start of a line
and a blank line in between. -/
def spreadLines : List String :=
  ["if (true) \x7b s = \"a;\x7d", "\x7bb\"; \x7d", "else \x7b print(0); \x7d; n = 1;", "",
    "while (n > 0) \x7b n = n - 1;", "print(s); \x7d;"]

/-- The hypotheses of `Repl.drive_agrees` hold of `spreadLines`. -/
theorem Repl.drive_agrees_spreadLines :
    lexErrorsOf (sourceOf spreadLines) = [] ∧ ∃ x,
      Script.execute 2 (sourceOf spreadLines) .empty = some x ∧ x.error? = none ∧
        x.state.output = #["a;\x7d\n\x7bb"] ∧ x.state.context.names = ["s", "n"] ∧ ∃ es,
          fresh.drive 2 (spreadLines.map .ok) = some (es, some ⟨⟨x.state.context⟩, ""⟩) ∧
            es.filter (fun e => !e.isPrompt) = x.state.output.toList.map .printed := by
  have hlex : lexErrorsOf (sourceOf spreadLines) = [] := by decide +kernel
  have hrun : (Script.execute 2 (sourceOf spreadLines) .empty).map
      (fun x => (x.error?, x.state.output, x.state.context.names)) =
        some (none, #["a;\x7d\n\x7bb"], ["s", "n"]) := by decide +kernel
  obtain ⟨x, hx, hfields⟩ := Option.map_eq_some_iff.1 hrun
  obtain ⟨hok, houtput, hnames⟩ : x.error? = none ∧ x.state.output = #["a;\x7d\n\x7bb"] ∧
      x.state.context.names = ["s", "n"] := by simpa using hfields
  exact ⟨hlex, x, hx, hok, houtput, hnames, drive_agrees hlex hx hok⟩

end Console
end FlatScript
