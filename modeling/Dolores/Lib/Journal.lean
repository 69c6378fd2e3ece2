import Mathlib.Data.List.Induction

/-!
# Lawful journals

A journal is the list of everything that has happened so far, oldest first.  A law says which
event may follow a journal; what holds of every lawful journal is found by induction from its end.

* `Lawful law es`       each event of `es` was allowed by the events before it;
* `Lawful.at`           the law at an event inside the journal;
* `Lawful.invariant`    what the empty journal has and every lawful event keeps;
* `Lawful.append_all`   events that every journal allows;
* `LastWith P`          the last event of a kind, and what it followed;
* `pairs`               the consecutive elements of a list, which grow at its end.
-/

namespace Journal

section
variable {ε : Type} {law law' : List ε → ε → Prop} {past es rest : List ε} {e : ε}

inductive Lawful (law : List ε → ε → Prop) : List ε → Prop
  | nil : Lawful law []
  | snoc {past : List ε} {e : ε} (h : Lawful law past) (he : law past e) : Lawful law (past ++ [e])

theorem Lawful.invariant {I : List ε → Prop} (hnil : I [])
    (hsnoc : ∀ past e, Lawful law past → I past → law past e → I (past ++ [e]))
    (h : Lawful law es) : I es := by
  induction h with
  | nil => exact hnil
  | snoc h he ih => exact hsnoc _ _ h ih he

theorem Lawful.mono (h : Lawful law es) (hlaw : ∀ past e, law past e → law' past e) :
    Lawful law' es := by
  induction h with
  | nil => exact .nil
  | snoc _ he ih => exact .snoc ih (hlaw _ _ he)

theorem Lawful.last (h : Lawful law (past ++ [e])) : Lawful law past ∧ law past e := by
  generalize hes : past ++ [e] = es at h
  cases h with
  | nil => exact (List.append_ne_nil_of_right_ne_nil past (List.cons_ne_nil e []) hes).elim
  | snoc h' he =>
    obtain ⟨rfl, hlast⟩ := List.append_inj' hes rfl
    obtain rfl := (List.cons.inj hlast).1
    exact ⟨h', he⟩

theorem Lawful.of_append (h : Lawful law (past ++ rest)) : Lawful law past := by
  induction rest using List.reverseRecOn with
  | nil =>
    rw [List.append_nil] at h
    exact h
  | append_singleton rest e ih =>
    rw [← List.append_assoc] at h
    exact ih h.last.1

theorem Lawful.at (h : Lawful law (past ++ e :: rest)) : law past e := by
  have hsplit : past ++ e :: rest = (past ++ [e]) ++ rest := by
    rw [List.append_assoc]
    rfl
  rw [hsplit] at h
  exact h.of_append.last.2

theorem Lawful.append_all (h : Lawful law past) (hes : ∀ e ∈ es, ∀ past, law past e) :
    Lawful law (past ++ es) := by
  induction es using List.reverseRecOn with
  | nil =>
    rw [List.append_nil]
    exact h
  | append_singleton es e ih =>
    rw [← List.append_assoc]
    refine .snoc (ih fun e' he' => hes e' (List.mem_append_left _ he')) ?_
    exact hes e (List.mem_append_right _ (List.mem_singleton_self e)) _

end

/-! ## the last event of a kind -/

section
variable {ε : Type} {P : ε → Prop} {es before : List ε} {e e' : ε}

/-- `e` is the last event with `P`, and `before` is what it followed -/
def LastWith (P : ε → Prop) (es before : List ε) (e : ε) : Prop :=
  P e ∧ ∃ after, es = before ++ e :: after ∧ ∀ x ∈ after, ¬ P x

theorem lastWith_snoc (h : P e) : LastWith P (es ++ [e]) es e :=
  ⟨h, [], rfl, fun _ hx => (List.not_mem_nil hx).elim⟩

theorem LastWith.snoc (h : LastWith P es before e) (he' : ¬ P e') :
    LastWith P (es ++ [e']) before e := by
  obtain ⟨he, after, rfl, hafter⟩ := h
  refine ⟨he, after ++ [e'], by rw [List.append_assoc]; rfl, fun x hx => ?_⟩
  rcases List.mem_append.mp hx with hx | hx
  · exact hafter x hx
  · rw [List.mem_singleton.mp hx]
    exact he'

end

/-! ## consecutive elements -/

section
variable {α : Type}

def pairs (xs : List α) : List (α × α) := xs.zip xs.tail

theorem pairs_cons_cons (x y : α) (xs : List α) : pairs (x :: y :: xs) = (x, y) :: pairs (y :: xs) :=
  rfl

theorem pairs_concat (xs : List α) (x y : α) :
    pairs (xs ++ [x] ++ [y]) = pairs (xs ++ [x]) ++ [(x, y)] := by
  induction xs with
  | nil => rfl
  | cons z xs ih =>
    cases xs with
    | nil => rfl
    | cons z' xs =>
      show pairs (z :: z' :: (xs ++ [x] ++ [y])) = pairs (z :: z' :: (xs ++ [x])) ++ [(x, y)]
      rw [pairs_cons_cons, pairs_cons_cons, List.cons_append]
      exact congrArg _ ih

end

end Journal
