/-
# The store and its history

A context is changed in two ways: a name is set to a value, or all variables are
removed.  What a history of changes leaves depends only on the settings after the
last removal (`Context.settings`), and the context records just this of them
(`Context.Records`):

| of the settings | in the context |
| --- | --- |
| the names, in the order of their first settings | the order of the entries |
| for each name, the value of its last setting | the value of the entry |

The order is what a listing shows.  Equality of contexts does not: two contexts
are alike exactly when the same names were set in both, to the same values in the
end (`Context.alike_iff`).  All but a NaN are alike to themselves, and else only
the two zeros are alike (`Value.alike_iff`).
-/

import FlatScript.Expr.Eval
import Mathlib

namespace FlatScript

namespace Value

/-- A value other than the float that is no number. -/
def NotNaN : Value → Prop
  | .real x => x.isNaN = false
  | _ => True

/-- A float zero, of either sign. -/
def IsZero (v : Value) : Prop :=
  v = .real 0 ∨ v = .real (-0)

/-- The same value, or a zero of the other sign. -/
def Same (v w : Value) : Prop :=
  v = w ∨ v.IsZero ∧ w.IsZero

/-- **Values are alike when they are the same**, a NaN apart. -/
theorem alike_iff {v w : Value} (hv : v.NotNaN) : v.alike w = true ↔ v.Same w := by
  cases v with
  | real x =>
    have hx : x ≠ Float.nan := by simpa [NotNaN, Float.isNaN_eq_decide_eq_nan] using hv
    cases w with
    | real y =>
      have hzero : (0 : Float) ≠ Float.nan ∧ (-0 : Float) ≠ Float.nan := by decide
      simp only [alike, Same, IsZero, Float.beq_iff_ne_nan_and_eq, Value.real.injEq]
      constructor
      · rintro ⟨-, -, rfl | ⟨rfl, rfl⟩ | ⟨rfl, rfl⟩⟩ <;> simp
      · rintro (rfl | ⟨rfl | rfl, rfl | rfl⟩) <;> simp [hx, hzero]
    | _ => simp [alike, Same, IsZero]
  | _ => cases w <;> simp [alike, Same, IsZero]

end Value

namespace Context

/-- The entries of a context are its names with their values. -/
theorem get?_eq_some_iff {c : Context} {x : String} {v : Value} :
    c.get? x = some v ↔ (x, v) ∈ c.entries := by
  refine ⟨mem_entries_of_get?, fun h => ?_⟩
  obtain ⟨before, after, hentries⟩ := List.append_of_mem h
  refine List.lookup_eq_some_iff.2 ⟨before, after, hentries, fun e he => ?_⟩
  have hnodup := c.nodup
  rw [hentries, List.map_append, List.map_cons] at hnodup
  have hne := List.disjoint_of_nodup_append hnodup (List.mem_map_of_mem he)
  exact bne_iff_ne.2 fun hx => hne (hx ▸ List.mem_cons_self)

theorem mem_names_iff {c : Context} {x : String} : x ∈ c.names ↔ ∃ v, (x, v) ∈ c.entries := by
  simp [names]

/-- Nothing is found under what is no name. -/
theorem get?_eq_none_iff {c : Context} {x : String} : c.get? x = none ↔ x ∉ c.names := by
  simp [Option.eq_none_iff_forall_ne_some, get?_eq_some_iff, mem_names_iff]

theorem nodup_names (c : Context) : c.names.Nodup :=
  c.nodup

theorem length_names (c : Context) : c.names.length = c.size :=
  List.length_map _

/-- A change of the variables. -/
inductive Change where
  | set (x : String) (v : Value)
  | clear

/-- The name and the value of a setting. -/
def Change.setting? : Change → Option (String × Value)
  | .set x v => some (x, v)
  | .clear => none

/-- The context after a change. -/
def change (c : Context) : Change → Context
  | .set x v => c.set x v
  | .clear => .empty

/-- The context after a history of changes that starts without variables. -/
def after (history : List Change) : Context :=
  history.foldl change .empty

/-- The settings of a history after its last removal, in order. -/
def settings (history : List Change) : List (String × Value) :=
  (history.reverse.takeWhile fun a => a.setting?.isSome).reverse.filterMap Change.setting?

theorem after_concat (history : List Change) (a : Change) :
    after (history ++ [a]) = (after history).change a :=
  List.foldl_concat ..

theorem settings_concat_set (history : List Change) (x : String) (v : Value) :
    settings (history ++ [.set x v]) = settings history ++ [(x, v)] := by
  simp [settings, Change.setting?]

theorem settings_concat_clear (history : List Change) : settings (history ++ [.clear]) = [] := by
  simp [settings, Change.setting?]

/-- Of all settings of `x`, the last one is to `v`. -/
def LastSet (sets : List (String × Value)) (x : String) (v : Value) : Prop :=
  ∃ before later, sets = before ++ (x, v) :: later ∧ x ∉ later.map Prod.fst

/-- A setting at the end is the last of its name, and changes nothing for the others. -/
theorem lastSet_concat {sets : List (String × Value)} {x y : String} {v w : Value} :
    LastSet (sets ++ [(y, w)]) x v ↔ x = y ∧ v = w ∨ x ≠ y ∧ LastSet sets x v := by
  constructor
  · rintro ⟨before, later, hsets, hlater⟩
    rcases List.eq_nil_or_concat' later with rfl | ⟨later, e, rfl⟩
    · obtain ⟨-, he⟩ := List.append_inj' hsets rfl
      simp only [List.cons.injEq, Prod.mk.injEq, and_true] at he
      exact .inl ⟨he.1.symm, he.2.symm⟩
    · rw [← List.cons_append, ← List.append_assoc] at hsets
      obtain ⟨hfront, he⟩ := List.append_inj' hsets rfl
      obtain rfl := List.singleton_inj.1 he
      rw [List.map_append, List.mem_append, not_or] at hlater
      exact .inr ⟨by simpa using hlater.2, before, later, hfront, hlater.1⟩
  · rintro (⟨rfl, rfl⟩ | ⟨hne, before, later, rfl, hlater⟩)
    · exact ⟨sets, [], rfl, List.not_mem_nil⟩
    · refine ⟨before, later ++ [(y, w)], by simp, ?_⟩
      simpa [hne] using hlater

/-- What a context keeps of settings: the names in the order of their first
settings, each with the value of its last one. -/
structure Records (sets : List (String × Value)) (c : Context) : Prop where
  mem_names : ∀ x, x ∈ c.names ↔ x ∈ sets.map Prod.fst
  order : c.names.Pairwise fun x y =>
    (sets.map Prod.fst).idxOf x < (sets.map Prod.fst).idxOf y
  mem_entries : ∀ x v, (x, v) ∈ c.entries ↔ LastSet sets x v

namespace Records

variable {sets : List (String × Value)} {c : Context}

theorem empty : Records [] .empty where
  mem_names x := by simp [Context.empty, names]
  order := .nil
  mem_entries x v := by simp [Context.empty, LastSet]

/-- One more setting adds its name last, unless it is there, and changes its value. -/
theorem set (h : Records sets c) (y : String) (w : Value) :
    Records (sets ++ [(y, w)]) (c.set y w) where
  mem_names x := by
    rw [names_set, List.map_append, List.mem_append, ← h.mem_names]
    split <;> grind
  order := by
    have hold : ∀ {x}, x ∈ c.names →
        ((sets ++ [(y, w)]).map Prod.fst).idxOf x = (sets.map Prod.fst).idxOf x := by
      intro x hx
      rw [List.map_append, List.idxOf_append_of_mem ((h.mem_names x).1 hx)]
    have hkept : c.names.Pairwise fun x x' => ((sets ++ [(y, w)]).map Prod.fst).idxOf x <
        ((sets ++ [(y, w)]).map Prod.fst).idxOf x' :=
      h.order.imp_of_mem fun hx hx' hlt => by rwa [hold hx, hold hx']
    rw [names_set]
    split
    · exact hkept
    · rename_i hnew
      refine List.pairwise_append.2 ⟨hkept, List.pairwise_singleton _ y, fun x hx x' hx' => ?_⟩
      obtain rfl := List.mem_singleton.1 hx'
      have hlt := List.idxOf_lt_length_iff.2 ((h.mem_names x).1 hx)
      rw [hold hx, List.map_append,
        List.idxOf_append_of_notMem fun hmem => hnew ((h.mem_names _).2 hmem)]
      omega
  mem_entries x v := by
    rw [← get?_eq_some_iff, get?_set, lastSet_concat, ← h.mem_entries, ← get?_eq_some_iff]
    by_cases hx : x = y <;> simp [hx, eq_comm]

/-- What is found is what was set last. -/
theorem get?_eq_some_iff (h : Records sets c) {x : String} {v : Value} :
    c.get? x = some v ↔ LastSet sets x v :=
  Context.get?_eq_some_iff.trans (h.mem_entries x v)

/-- Nothing is found under what was never set. -/
theorem get?_eq_none_iff (h : Records sets c) {x : String} :
    c.get? x = none ↔ x ∉ sets.map Prod.fst :=
  Context.get?_eq_none_iff.trans (h.mem_names x).not

/-- There are as many variables as names were set. -/
theorem size_eq (h : Records sets c) : c.size = (sets.map Prod.fst).toFinset.card := by
  have hnames : c.names.toFinset = (sets.map Prod.fst).toFinset := by
    ext x
    rw [List.mem_toFinset, List.mem_toFinset, h.mem_names]
  rw [← hnames, List.toFinset_card_of_nodup c.nodup_names, length_names]

end Records

/-- **A context records the settings after the last removal**, whatever the history. -/
theorem records_after (history : List Change) : Records (settings history) (after history) := by
  induction history using List.reverseRecOn with
  | nil => exact .empty
  | append_singleton history a ih =>
    rw [after_concat]
    cases a with
    | set x v =>
      rw [settings_concat_set]
      exact ih.set x v
    | clear =>
      rw [settings_concat_clear]
      exact .empty

/-- As many variables, and each with an alike value: what alike contexts are tested
for. -/
theorem alike_eq_true_iff {c d : Context} :
    c.alike d = true ↔ c.size = d.size ∧
      ∀ x v, (x, v) ∈ c.entries → ∃ w, (x, w) ∈ d.entries ∧ v.alike w = true := by
  rw [alike, Bool.and_eq_true, beq_iff_eq, List.all_eq_true]
  refine and_congr_right fun _ => ⟨fun h x v hv => ?_, fun h e he => ?_⟩
  · have hx := h (x, v) hv
    cases hw : d.get? x with
    | none => simp [hw] at hx
    | some w => exact ⟨w, get?_eq_some_iff.1 hw, by simpa [hw] using hx⟩
  · obtain ⟨w, hw, halike⟩ := h e.1 e.2 he
    simpa [get?_eq_some_iff.2 hw] using halike

/-- **Contexts are alike when they have the same names with alike values**, in
whatever order. -/
theorem alike_iff {c d : Context} :
    c.alike d = true ↔ (∀ x, x ∈ c.names ↔ x ∈ d.names) ∧
      ∀ x v w, (x, v) ∈ c.entries → (x, w) ∈ d.entries → v.alike w = true := by
  rw [alike_eq_true_iff, ← length_names, ← length_names]
  constructor
  · rintro ⟨hlength, h⟩
    have hsub : c.names ⊆ d.names := by
      intro x hx
      obtain ⟨v, hv⟩ := mem_names_iff.1 hx
      obtain ⟨w, hw, -⟩ := h x v hv
      exact mem_names_iff.2 ⟨w, hw⟩
    -- as many names as in the other context, so all of them
    have hperm := (List.subperm_of_subset c.nodup_names hsub).perm_of_length_le hlength.ge
    refine ⟨fun x => hperm.mem_iff, fun x v w hv hw => ?_⟩
    obtain ⟨w', hw', halike⟩ := h x v hv
    have heq := (get?_eq_some_iff.2 hw).symm.trans (get?_eq_some_iff.2 hw')
    rwa [Option.some.inj heq]
  · rintro ⟨hnames, h⟩
    have hperm := (List.perm_ext_iff_of_nodup c.nodup_names d.nodup_names).2 hnames
    refine ⟨hperm.length_eq, fun x v hv => ?_⟩
    obtain ⟨w, hw⟩ := mem_names_iff.1 ((hnames x).1 (mem_names_iff.2 ⟨v, hv⟩))
    exact ⟨w, hw, h x v w hv hw⟩

/-- **The store is a map in the order of first assignment.**  After any history,
look only at the settings after its last removal.  The entries list each name that
was set, once, in the order of first settings and with the value last set; that
value and its kind are what is found under the name, and under a name that was not
set nothing is found, which is a fault where a value is needed; the size is the
number of names.  Without a NaN among the last values, the context is alike to that
of another history exactly when the same names were set in both, and last to the
same values. -/
theorem after_is_ordered_map (history : List Change) :
    let sets := settings history
    let c := after history
    c.names.Nodup ∧ Records sets c ∧
      (∀ x v, LastSet sets x v →
        c.get? x = some v ∧ c.kindOf? x = some v.kind ∧ ∀ n, onLine n (c.lookup x) = .ok v) ∧
      (∀ x, x ∉ sets.map Prod.fst →
        c.get? x = none ∧ c.kindOf? x = none ∧
          ∀ n, onLine n (c.lookup x) = .error ⟨.undefinedVariable x, n⟩) ∧
      c.size = (sets.map Prod.fst).toFinset.card ∧
      ∀ other, (∀ x v, LastSet sets x v → v.NotNaN) →
        (c.alike (after other) = true ↔
          (∀ x, x ∈ sets.map Prod.fst ↔ x ∈ (settings other).map Prod.fst) ∧
            ∀ x v w, LastSet sets x v → LastSet (settings other) x w → v.Same w) := by
  intro sets c
  have hrecords : Records sets c := records_after history
  refine ⟨c.nodup_names, hrecords, fun x v hv => ?_, fun x hx => ?_, hrecords.size_eq,
    fun other hnumbers => ?_⟩
  · have hget := hrecords.get?_eq_some_iff.2 hv
    exact ⟨hget, by rw [kindOf?, hget, Option.map_some], fun n => by rw [lookup, hget, onLine]⟩
  · have hget := hrecords.get?_eq_none_iff.2 hx
    exact ⟨hget, by rw [kindOf?, hget, Option.map_none], fun n => by rw [lookup, hget, onLine]⟩
  · have hother := records_after other
    simp only [alike_iff, hrecords.mem_names, hother.mem_names, hrecords.mem_entries,
      hother.mem_entries]
    refine and_congr_right fun _ => forall_congr' fun x => forall_congr' fun v =>
      forall_congr' fun w => forall_congr' fun hv => ?_
    rw [Value.alike_iff (hnumbers x v hv)]

/-- A history that removes a variable and sets one again to another kind, and one
that ends with the same values, but for the sign of a zero, in another order. -/
theorem after_is_ordered_map_reordered :
    let history : List Change := [.set "gone" (.integer 1), .clear, .set "x" (.integer 7),
      .set "y" (.real 0), .set "x" (.str "seven")]
    let other : List Change := [.set "y" (.bool true), .set "x" (.str "seven"),
      .set "y" (.real (-0))]
    (∀ x v, LastSet (settings history) x v → v.NotNaN) ∧
      (after history).entries = [("x", .str "seven"), ("y", .real 0)] ∧
        (after other).entries = [("y", .real (-0)), ("x", .str "seven")] ∧
          (after history).alike (after other) = true ∧
            ∀ v w, LastSet (settings history) "y" v → LastSet (settings other) "y" w →
              v.Same w := by
  intro history other
  have hentries : (after history).entries = [("x", .str "seven"), ("y", .real 0)] := by
    decide +kernel
  have halike : (after history).alike (after other) = true := by decide +kernel
  have hnumbers : ∀ x v, LastSet (settings history) x v → v.NotNaN := by
    intro x v hv
    have hmem := ((records_after history).mem_entries x v).2 hv
    rw [hentries] at hmem
    rcases List.mem_pair.1 hmem with he | he
    · obtain ⟨-, rfl⟩ := Prod.mk.inj he
      trivial
    · obtain ⟨-, rfl⟩ := Prod.mk.inj he
      exact (by decide : (0 : Float).isNaN = false)
  obtain ⟨-, -, -, -, -, hsame⟩ := after_is_ordered_map history
  exact ⟨hnumbers, hentries, by decide +kernel, halike,
    ((hsame other hnumbers).1 halike).2 "y"⟩

end Context
end FlatScript
