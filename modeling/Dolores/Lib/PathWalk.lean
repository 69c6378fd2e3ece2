import Mathlib.Data.List.DropRight
import Mathlib.Data.List.Infix

/-!
# Paths through symbolic links

A place is the list of the names from the root to it, with no link among them.  A path is a list of
steps; it is walked from a place, and a link on the way puts its own steps before the rest.

* `Links.walk`, `Resolves`  the walk, and the place where it ends;
* `resolves_append`         a path walked in two parts;
* `resolves_from`           a place is found again by its names, from the root;
* `resolves_plain`          a walk that meets no link ends where the names say;
* `lexical_eq`              what that is: some levels up, and then some names;
* `plain_together_iff`      when one path leads from two places to one.
-/

/-- a component of a path -/
inductive PathStep (N : Type) where
  /-- `..` -/
  | up
  | down (name : N)
deriving DecidableEq

/-- what a symbolic link holds -/
structure LinkTarget (N : Type) where
  absolute : Bool
  steps : List (PathStep N)

/-- the symbolic links, each under the names of its own place -/
abbrev Links (N : Type) := List N → Option (LinkTarget N)

namespace Links
variable {N : Type}

/-- the names of a place, none of which is a link -/
structure Place (links : Links N) where
  names : List N
  real : ∀ before n, before ++ [n] <+: names → links (before ++ [n]) = none

section
variable {links : Links N}

theorem Place.ext {p q : links.Place} (h : p.names = q.names) : p = q := by
  cases p
  cases q
  cases h
  rfl

def Place.root : links.Place where
  names := []
  real before n h := absurd (List.prefix_nil.mp h) (List.append_ne_nil_of_right_ne_nil _ (by simp))

/-- the root is above itself -/
def Place.up (p : links.Place) : links.Place where
  names := p.names.dropLast
  real before n h := p.real before n (h.trans (List.dropLast_prefix _))

def Place.down (p : links.Place) (n : N) (h : links (p.names ++ [n]) = none) : links.Place where
  names := p.names ++ [n]
  real := by
    intro before m hprefix
    rcases List.prefix_concat_iff.mp hprefix with heq | hbefore
    · rw [heq]
      exact h
    · exact p.real before m hbefore

/-- where the steps of a link begin, if the link is in this place -/
def Place.linked (p : links.Place) (target : LinkTarget N) : links.Place :=
  if target.absolute then .root else p

variable (links) in
/-- at most so many components are looked up -/
def walk : Nat → links.Place → List (PathStep N) → Option links.Place
  | _, here, [] => some here
  | 0, _, _ :: _ => none
  | fuel + 1, here, .up :: steps => walk fuel here.up steps
  | fuel + 1, here, .down n :: steps =>
    match h : links (here.names ++ [n]) with
    | none => walk fuel (here.down n h) steps
    | some target => walk fuel (here.linked target) (target.steps ++ steps)

/-- the path leads from one place to another; a loop of links leads nowhere -/
def Resolves (here : links.Place) (steps : List (PathStep N)) (there : links.Place) : Prop :=
  ∃ fuel, links.walk fuel here steps = some there

end

section
variable {links : Links N} {here there : links.Place} {steps rest : List (PathStep N)} {n : N}

theorem walk_nil (fuel : Nat) : links.walk fuel here [] = some here := by
  cases fuel <;> rfl

theorem walk_up (fuel : Nat) :
    links.walk (fuel + 1) here (.up :: steps) = links.walk fuel here.up steps := rfl

theorem walk_down (h : links (here.names ++ [n]) = none) (fuel : Nat) :
    links.walk (fuel + 1) here (.down n :: steps) = links.walk fuel (here.down n h) steps := by
  rw [walk]
  split
  · rfl
  · next hlink => exact nomatch h.symm.trans hlink

theorem walk_link {target : LinkTarget N} (h : links (here.names ++ [n]) = some target)
    (fuel : Nat) : links.walk (fuel + 1) here (.down n :: steps) =
      links.walk fuel (here.linked target) (target.steps ++ steps) := by
  rw [walk]
  split
  · next hlink => exact nomatch h.symm.trans hlink
  · next hlink => rw [Option.some.inj (h.symm.trans hlink)]

theorem walk_succ {fuel : Nat} (h : links.walk fuel here steps = some there) :
    links.walk (fuel + 1) here steps = some there := by
  induction fuel generalizing here steps with
  | zero =>
    cases steps with
    | nil => exact h
    | cons => exact nomatch h
  | succ fuel ih =>
    cases steps with
    | nil => exact h
    | cons step steps =>
      cases step with
      | up => exact ih h
      | down n =>
        cases hlink : links (here.names ++ [n]) with
        | none =>
          rw [walk_down hlink] at h ⊢
          exact ih h
        | some target =>
          rw [walk_link hlink] at h ⊢
          exact ih h

theorem walk_add {fuel : Nat} (h : links.walk fuel here steps = some there) (more : Nat) :
    links.walk (fuel + more) here steps = some there := by
  induction more with
  | zero => exact h
  | succ more ih => exact walk_succ ih

/-- a path leads to one place -/
theorem Resolves.unique {there' : links.Place} (h : Resolves here steps there)
    (h' : Resolves here steps there') : there = there' := by
  obtain ⟨fuel, hwalk⟩ := h
  obtain ⟨fuel', hwalk'⟩ := h'
  have hboth := walk_add hwalk fuel'
  rw [Nat.add_comm] at hboth
  exact Option.some.inj (hboth.symm.trans (walk_add hwalk' fuel))

theorem resolves_nil : Resolves here [] there ↔ there = here := by
  constructor
  · rintro ⟨fuel, h⟩
    rw [walk_nil] at h
    exact (Option.some.inj h).symm
  · intro h
    rw [h]
    exact ⟨0, rfl⟩

/-- the first step is `..`, or a name that is no link, or a link -/
theorem resolves_of_walk {first : PathStep N} {next : links.Place}
    (h : ∀ fuel, links.walk (fuel + 1) here (first :: steps) = links.walk fuel next rest) :
    Resolves here (first :: steps) there ↔ Resolves next rest there := by
  constructor
  · rintro ⟨fuel, hwalk⟩
    cases fuel with
    | zero => exact nomatch hwalk
    | succ fuel => exact ⟨fuel, (h fuel).symm.trans hwalk⟩
  · rintro ⟨fuel, hwalk⟩
    exact ⟨fuel + 1, (h fuel).trans hwalk⟩

theorem resolves_up : Resolves here (.up :: steps) there ↔ Resolves here.up steps there :=
  resolves_of_walk walk_up

theorem resolves_down (h : links (here.names ++ [n]) = none) :
    Resolves here (.down n :: steps) there ↔ Resolves (here.down n h) steps there :=
  resolves_of_walk (walk_down h)

theorem resolves_link {target : LinkTarget N} (h : links (here.names ++ [n]) = some target) :
    Resolves here (.down n :: steps) there ↔
      Resolves (here.linked target) (target.steps ++ steps) there :=
  resolves_of_walk (walk_link h)

/-- a path that is walked in two parts -/
theorem resolves_append : Resolves here (steps ++ rest) there ↔
    ∃ between, Resolves here steps between ∧ Resolves between rest there := by
  constructor
  · rintro ⟨fuel, hwalk⟩
    induction fuel generalizing here steps with
    | zero =>
      cases steps with
      | nil => exact ⟨here, resolves_nil.mpr rfl, 0, hwalk⟩
      | cons => exact nomatch hwalk
    | succ fuel ih =>
      cases steps with
      | nil => exact ⟨here, resolves_nil.mpr rfl, fuel + 1, hwalk⟩
      | cons step steps =>
        cases step with
        | up =>
          obtain ⟨between, hfirst, hlast⟩ := ih hwalk
          exact ⟨between, resolves_up.mpr hfirst, hlast⟩
        | down n =>
          cases hlink : links (here.names ++ [n]) with
          | none =>
            rw [List.cons_append, walk_down hlink] at hwalk
            obtain ⟨between, hfirst, hlast⟩ := ih hwalk
            exact ⟨between, (resolves_down hlink).mpr hfirst, hlast⟩
          | some target =>
            rw [List.cons_append, walk_link hlink, ← List.append_assoc] at hwalk
            obtain ⟨between, hfirst, hlast⟩ := ih hwalk
            exact ⟨between, (resolves_link hlink).mpr hfirst, hlast⟩
  · rintro ⟨between, ⟨fuel, hwalk⟩, hlast⟩
    induction fuel generalizing here steps with
    | zero =>
      cases steps with
      | nil =>
        rw [Option.some.inj hwalk]
        exact hlast
      | cons => exact nomatch hwalk
    | succ fuel ih =>
      cases steps with
      | nil =>
        rw [Option.some.inj hwalk]
        exact hlast
      | cons step steps =>
        cases step with
        | up => exact resolves_up.mpr (ih hwalk)
        | down n =>
          cases hlink : links (here.names ++ [n]) with
          | none =>
            rw [walk_down hlink] at hwalk
            exact (resolves_down hlink).mpr (ih hwalk)
          | some target =>
            rw [walk_link hlink] at hwalk
            have hrest := ih hwalk
            rw [List.append_assoc] at hrest
            exact (resolves_link hlink).mpr hrest

end

/-! ## the names of a place -/

/-- the path of a place, from the root -/
def Place.steps {links : Links N} (p : links.Place) : List (PathStep N) := p.names.map .down

section
variable {links : Links N} {there : links.Place}

theorem resolves_steps (p : links.Place) : Resolves .root p.steps p := by
  obtain ⟨names, real⟩ := p
  induction names using List.reverseRecOn with
  | nil => exact resolves_nil.mpr rfl
  | append_singleton names n ih =>
    have hlink : links (names ++ [n]) = none := real names n List.prefix_rfl
    have hreal : ∀ before m, before ++ [m] <+: names → links (before ++ [m]) = none :=
      fun before m h => real before m (h.trans (List.prefix_append _ _))
    show Resolves .root ((names ++ [n]).map .down) _
    rw [List.map_append, List.map_singleton]
    refine resolves_append.mpr ⟨⟨names, hreal⟩, ih hreal, ?_⟩
    exact (resolves_down hlink).mpr (resolves_nil.mpr rfl)

/-- a path that begins with the names of a place is walked from there -/
theorem resolves_from (p : links.Place) (steps : List (PathStep N)) :
    Resolves .root (p.steps ++ steps) there ↔ Resolves p steps there := by
  rw [resolves_append]
  constructor
  · rintro ⟨between, hfirst, hlast⟩
    rw [hfirst.unique (resolves_steps p)] at hlast
    exact hlast
  · intro h
    exact ⟨p, resolves_steps p, h⟩

end

/-! ## paths that meet no link -/

/-- one step, if nothing is a link -/
def lexicalStep (here : List N) : PathStep N → List N
  | .up => here.dropLast
  | .down n => here ++ [n]

def lexical (here : List N) (steps : List (PathStep N)) : List N := steps.foldl lexicalStep here

/-- no name on the way is a link -/
def Plain (links : Links N) : List N → List (PathStep N) → Prop
  | _, [] => True
  | here, .up :: steps => Plain links here.dropLast steps
  | here, .down n :: steps => links (here ++ [n]) = none ∧ Plain links (here ++ [n]) steps

/-- one more step, after a path that climbs so many levels and then goes down these names -/
def netStep : Nat × List N → PathStep N → Nat × List N
  | (levels, []), .up => (levels + 1, [])
  | (levels, n :: names), .up => (levels, (n :: names).dropLast)
  | (levels, names), .down n => (levels, names ++ [n])

/-- the levels that a path climbs above its start, and the names that it goes down from there -/
def net (steps : List (PathStep N)) : Nat × List N := steps.foldl netStep (0, [])

section
variable {links : Links N} {here there : links.Place} {steps : List (PathStep N)}

theorem resolves_plain (h : Plain links here.names steps) :
    Resolves here steps there ↔ there.names = lexical here.names steps := by
  induction steps generalizing here with
  | nil =>
    rw [resolves_nil]
    exact ⟨fun heq => congrArg Place.names heq, Place.ext⟩
  | cons step steps ih =>
    cases step with
    | up =>
      rw [resolves_up]
      exact ih h
    | down n =>
      rw [resolves_down h.1]
      exact ih h.2

/-- a walk that meets no link comes to its end -/
theorem exists_resolves (h : Plain links here.names steps) :
    ∃ there, Resolves here steps there := by
  induction steps generalizing here with
  | nil => exact ⟨here, resolves_nil.mpr rfl⟩
  | cons step steps ih =>
    cases step with
    | up =>
      obtain ⟨there, hthere⟩ := ih (show Plain links here.up.names steps from h)
      exact ⟨there, resolves_up.mpr hthere⟩
    | down n =>
      obtain ⟨there, hthere⟩ := ih (show Plain links (here.down n h.1).names steps from h.2)
      exact ⟨there, (resolves_down h.1).mpr hthere⟩

theorem lexical_concat (here : List N) (steps : List (PathStep N)) (step : PathStep N) :
    lexical here (steps ++ [step]) = lexicalStep (lexical here steps) step := by
  unfold lexical
  rw [List.foldl_append]
  rfl

theorem net_concat (steps : List (PathStep N)) (step : PathStep N) :
    net (steps ++ [step]) = netStep (net steps) step := by
  unfold net
  rw [List.foldl_append]
  rfl

theorem levels_down (r : Nat × List N) (n : N) : (netStep r (.down n)).1 = r.1 := by
  obtain ⟨levels, names⟩ := r
  cases names <;> rfl

theorem dropLast_rdrop (here : List N) (levels : Nat) :
    (here.rdrop levels).dropLast = here.rdrop (levels + 1) := by
  rw [← List.rdrop_add]
  exact List.dropLast_eq_take

theorem lexicalStep_net (here : List N) (r : Nat × List N) (step : PathStep N) :
    lexicalStep (here.rdrop r.1 ++ r.2) step =
      here.rdrop (netStep r step).1 ++ (netStep r step).2 := by
  obtain ⟨levels, names⟩ := r
  cases step with
  | up =>
    cases names with
    | nil =>
      show (here.rdrop levels ++ []).dropLast = here.rdrop (levels + 1) ++ []
      rw [List.append_nil, List.append_nil, dropLast_rdrop]
    | cons n names => exact List.dropLast_append_of_ne_nil (List.cons_ne_nil n names)
  | down n =>
    show here.rdrop levels ++ names ++ [n] = here.rdrop (netStep (levels, names) _).1 ++ _
    rw [List.append_assoc]
    cases names with
    | nil => rfl
    | cons => rfl

/-- a path climbs some levels, and then goes down -/
theorem lexical_eq (here : List N) (steps : List (PathStep N)) :
    lexical here steps = here.rdrop (net steps).1 ++ (net steps).2 := by
  induction steps using List.reverseRecOn with
  | nil =>
    show here = here.rdrop 0 ++ []
    rw [List.rdrop_zero, List.append_nil]
  | append_singleton steps step ih =>
    rw [lexical_concat, ih, net_concat]
    exact lexicalStep_net here (net steps) step

/-- two walks of one path, which meet no link, end together if and only if their starts agree above
the levels that the path climbs -/
theorem plain_together_iff {start start' : links.Place} (h : Plain links start.names steps)
    (h' : Plain links start'.names steps) :
    (∀ there, Resolves start steps there ↔ Resolves start' steps there) ↔
      start.names.rdrop (net steps).1 = start'.names.rdrop (net steps).1 := by
  have hlexical : lexical start.names steps = lexical start'.names steps ↔
      start.names.rdrop (net steps).1 = start'.names.rdrop (net steps).1 := by
    rw [lexical_eq, lexical_eq, List.append_left_inj]
  rw [← hlexical]
  constructor
  · intro hboth
    obtain ⟨there, hthere⟩ := exists_resolves h
    have hends := (resolves_plain h).mp hthere
    rw [← hends]
    exact (resolves_plain h').mp ((hboth there).mp hthere)
  · intro heq there
    rw [resolves_plain h, resolves_plain h', heq]

end

end Links
