/-
# The variable store

A context holds the variables of a run in the order of their first assignment.
Assigning to a variable that exists changes its value in place, so no variable
ever moves.  The names are pairwise distinct, as part of the type.
-/

import FlatScript.Fault
import FlatScript.Value.Text

namespace FlatScript

/-- The variables of a run, in the order of their first assignment. -/
structure Context where
  entries : List (String × Value)
  nodup : (entries.map Prod.fst).Nodup
deriving DecidableEq

namespace Context

/-- The names of the variables, in order. -/
def names (c : Context) : List String :=
  c.entries.map Prod.fst

/-- The context without variables. -/
def empty : Context :=
  ⟨[], List.nodup_nil⟩

/-- The number of variables. -/
def size (c : Context) : Nat :=
  c.entries.length

/-- Whether there are no variables. -/
def isEmpty (c : Context) : Bool :=
  c.entries.isEmpty

/-- The value of a variable, if it has one. -/
def get? (c : Context) (name : String) : Option Value :=
  c.entries.lookup name

/-- What is found under a name is an entry. -/
theorem mem_entries_of_get? {c : Context} {name : String} {v : Value}
    (h : c.get? name = some v) : (name, v) ∈ c.entries := by
  obtain ⟨before, after, hentries, -⟩ := List.lookup_eq_some_iff.1 h
  rw [hentries]
  exact List.mem_append_right before List.mem_cons_self

/-- The kind of a variable's value, if it has one. -/
def kindOf? (c : Context) (name : String) : Option Kind :=
  (c.get? name).map Value.kind

/-- The value of a variable; it is a fault to read one that has none. -/
def lookup (c : Context) (name : String) : Except RuntimeFault Value :=
  match c.get? name with
  | some v => .ok v
  | none => .error (.undefinedVariable name)

/-- The entries with `name` bound to `v`: in place, or as a new last entry. -/
def assign (name : String) (v : Value) : List (String × Value) → List (String × Value)
  | [] => [(name, v)]
  | e :: rest => if e.1 = name then (name, v) :: rest else e :: assign name v rest

/-- Assignment keeps the names in order and adds at most the assigned one, last. -/
theorem map_fst_assign (name : String) (v : Value) (es : List (String × Value)) :
    (assign name v es).map Prod.fst =
      if name ∈ es.map Prod.fst then es.map Prod.fst else es.map Prod.fst ++ [name] := by
  induction es with
  | nil => simp [assign]
  | cons e rest ih =>
    rw [assign]
    by_cases h : e.1 = name
    · simp [h]
    · have h' : ¬ name = e.1 := fun h'' => h h''.symm
      by_cases hr : name ∈ rest.map Prod.fst
      · rw [if_neg h, List.map_cons, ih, if_pos hr, List.map_cons,
          if_pos (List.mem_cons_of_mem _ hr)]
      · have hm : name ∉ e.1 :: rest.map Prod.fst := by
          rw [List.mem_cons, not_or]
          exact ⟨h', hr⟩
        rw [if_neg h, List.map_cons, ih, if_neg hr, List.map_cons, if_neg hm, List.cons_append]

/-- An entry after an assignment is the assigned one, or was there before. -/
theorem mem_assign {name : String} {v : Value} {es : List (String × Value)} {e : String × Value}
    (h : e ∈ assign name v es) : e = (name, v) ∨ e ∈ es := by
  induction es with
  | nil => exact .inl (List.mem_singleton.1 h)
  | cons d rest ih =>
    rw [assign] at h
    split at h
    · exact (List.mem_cons.1 h).imp_right (List.mem_cons_of_mem d)
    · rcases List.mem_cons.1 h with rfl | h
      · exact .inr List.mem_cons_self
      · exact (ih h).imp_right (List.mem_cons_of_mem d)

/-- An assignment keeps the names apart. -/
theorem nodup_assign (name : String) (v : Value) {es : List (String × Value)}
    (h : (es.map Prod.fst).Nodup) : ((assign name v es).map Prod.fst).Nodup := by
  rw [map_fst_assign]
  split
  · exact h
  · rename_i hn
    rw [List.nodup_append]
    refine ⟨h, by simp, fun a ha b hb => ?_⟩
    rw [List.mem_singleton] at hb
    rintro rfl
    exact hn (hb ▸ ha)

/-- The context with `name` bound to `v`. -/
def set (c : Context) (name : String) (v : Value) : Context :=
  ⟨assign name v c.entries, nodup_assign name v c.nodup⟩

/-- An assigned variable is added last, unless it was there. -/
theorem names_set (c : Context) (name : String) (v : Value) :
    (c.set name v).names = if name ∈ c.names then c.names else c.names ++ [name] :=
  map_fst_assign name v c.entries

/-- After an assignment the variable has the assigned value, and every other
one the value that it had. -/
theorem get?_set (c : Context) (name other : String) (v : Value) :
    (c.set name v).get? other = if other = name then some v else c.get? other := by
  have key : ∀ es : List (String × Value),
      (assign name v es).lookup other = if other = name then some v else es.lookup other := by
    intro es
    induction es with
    | nil =>
      by_cases h : other = name
      · simp [assign, h]
      · have hb : (other == name) = false := beq_false_of_ne h
        simp [assign, List.lookup_cons, h, hb]
    | cons e rest ih =>
      obtain ⟨n, w⟩ := e
      rw [assign]
      by_cases hn : n = name
      · by_cases h : other = name
        · simp [hn, h]
        · have hb : (other == name) = false := beq_false_of_ne h
          simp [hn, List.lookup_cons, h, hb]
      · by_cases h : other = n
        · simp [hn, h]
        · have hb : (other == n) = false := beq_false_of_ne h
          simp [hn, List.lookup_cons, hb, ih]
  exact key c.entries

/-- Whether two contexts have the same names with alike values, in any order. -/
def alike (c d : Context) : Bool :=
  c.size == d.size && c.entries.all fun e =>
    match d.get? e.1 with
    | some v => e.2.alike v
    | none => false

/-- The rule above and below the rows of the table. -/
def rule : String :=
  String.ofList (List.replicate 30 '-')

/-- One row of the table: name, value and kind between tabs. -/
def row (e : String × Value) : String :=
  e.1 ++ "\t" ++ e.2.text ++ "\t" ++ e.2.kind.text ++ "\n"

/-- The table of all variables, in order. -/
def table (c : Context) : String :=
  "Name\tValue\tType\n" ++ rule ++ "\n" ++ String.join (c.entries.map row) ++ rule ++ "\n"

end Context
end FlatScript
