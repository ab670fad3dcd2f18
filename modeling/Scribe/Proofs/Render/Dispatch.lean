import Scribe.Render.Generator
import Mathlib.Data.List.Nodup

/-!
Which transforms are tried for a kind. The search through more and more general keys comes down to a
plain list: the family, the capabilities in the order of the kind, and `any` once. However a
generator is set up, its table answers by that list for the factories it has, in the order in which
they were added.
-/
namespace Scribe

/-! The search. -/

namespace Kind

theorem nodup_capabilities (k : Kind) : k.capabilities.Nodup := by cases k <;> decide

theorem parents_ne_nil (k : Kind) : (Key.kind k).parents ≠ [] := by cases k <;> nofun

end Kind

namespace Key

theorem nodup_parents (k : Kind) : (kind k).parents.Nodup := by
  have hfamily : (k.family.map family).toList.Nodup := by
    cases k.family with
    | none => exact List.nodup_nil
    | some f => exact List.nodup_singleton _
  have hcapabilities : (k.capabilities.map capability).Nodup :=
    k.nodup_capabilities.map fun _ _ h => capability.inj h
  refine hfamily.append hcapabilities ?_
  intro key hf hc
  simp only [Option.mem_toList, Option.map_eq_some_iff, List.mem_map] at hf hc
  obtain ⟨f, -, rfl⟩ := hf
  obtain ⟨c, -, heq⟩ := hc
  exact nomatch heq

/-- A key that is directly above a kind: above it there is `any` alone. -/
structure Above (k : Kind) (key : Key) : Prop where
  ne_kind : key ≠ kind k
  ne_any : key ≠ any
  parents : key.parents = [any]

theorem above_of_mem_parents {k : Kind} {key : Key} (h : key ∈ (kind k).parents) :
    Above k key := by
  simp only [Key.parents, List.mem_append, Option.mem_toList, Option.map_eq_some_iff,
    List.mem_map] at h
  rcases h with ⟨f, -, rfl⟩ | ⟨c, -, rfl⟩
  · exact ⟨nofun, nofun, rfl⟩
  · exact ⟨nofun, nofun, rfl⟩

theorem eraseDups_of_nodup {keys : List Key} (h : keys.Nodup) : keys.eraseDups = keys := by
  induction keys with
  | nil => rfl
  | cons key keys ih =>
    obtain ⟨hkey, hkeys⟩ := List.nodup_cons.1 h
    have hfilter : keys.filter (fun key' => !key' == key) = keys := by
      rw [List.filter_eq_self]
      intro key' hmem
      simpa using fun heq : key' = key => hkey (heq ▸ hmem)
    rw [List.eraseDups_cons, hfilter, ih hkeys]

theorem climb_new {levels : Nat} {seen level : List Key} (hnodup : level.Nodup)
    (hnew : ∀ key ∈ level, key ∉ seen) :
    climb (levels + 1) seen level =
      level ++ climb levels (seen ++ level) (level.flatMap parents) := by
  have hfilter : level.filter (!seen.contains ·) = level := by
    rw [List.filter_eq_self]
    intro key hmem
    simpa using hnew key hmem
  rw [climb, hfilter, eraseDups_of_nodup hnodup]

theorem climb_nil (levels : Nat) (seen : List Key) : climb levels seen [] = [] := by
  induction levels generalizing seen with
  | zero => rfl
  | succ levels ih =>
    have hnone : ([] : List Key).eraseDups = [] := List.eraseDups_nil
    simp only [climb, List.filter_nil, hnone, List.flatMap_nil, ih, List.append_nil]

/-- A key that is met on several ways counts once, and nothing is above `any`. -/
theorem climb_any {levels : Nat} {seen level : List Key} (hne : level ≠ [])
    (hall : ∀ key ∈ level, key = any) (hnew : any ∉ seen) :
    climb (levels + 1) seen level = [any] := by
  have hfilter : level.filter (!seen.contains ·) = level := by
    rw [List.filter_eq_self]
    intro key hmem
    rw [hall key hmem]
    simpa using hnew
  have honce : level.eraseDups = [any] := by
    obtain ⟨key, rest, rfl⟩ := List.exists_cons_of_ne_nil hne
    obtain rfl := hall key List.mem_cons_self
    have hrest : rest.filter (fun key => !key == any) = [] := by
      rw [List.filter_eq_nil_iff]
      intro key hmem
      simp [hall key (List.mem_cons_of_mem _ hmem)]
    rw [List.eraseDups_cons, hrest, List.eraseDups_nil]
  rw [climb, hfilter, honce]
  exact congrArg (any :: ·) (climb_nil _ _)

/-- The search in full: the family and the capabilities, then `any`. -/
theorem ancestors_kind (k : Kind) : (kind k).ancestors = (kind k).parents ++ [any] := by
  have hfirst : climb 2 [kind k] (kind k).parents =
      (kind k).parents ++ climb 1 ([kind k] ++ (kind k).parents)
        ((kind k).parents.flatMap parents) := by
    apply climb_new (nodup_parents k)
    intro key hmem hseen
    exact (above_of_mem_parents hmem).ne_kind (List.mem_singleton.1 hseen)
  have hsecond : climb 1 ([kind k] ++ (kind k).parents) ((kind k).parents.flatMap parents) =
      [any] := by
    apply climb_any
    · intro hnil
      obtain ⟨key, hmem⟩ := List.exists_mem_of_ne_nil _ k.parents_ne_nil
      have hkey := List.flatMap_eq_nil_iff.1 hnil key hmem
      rw [(above_of_mem_parents hmem).parents] at hkey
      exact nomatch hkey
    · intro key hmem
      obtain ⟨key', hmem', hkey⟩ := List.mem_flatMap.1 hmem
      rw [(above_of_mem_parents hmem').parents] at hkey
      exact List.mem_singleton.1 hkey
    · intro hmem
      rcases List.mem_append.1 hmem with h | h
      · exact nomatch List.mem_singleton.1 h
      · exact (above_of_mem_parents h).ne_any rfl
  rw [← hsecond, ← hfirst]
  rfl

end Key

/-! The flat rule. -/

namespace Kind

def keys (k : Kind) : List Key :=
  [.kind k] ++ k.family.toList.map .family ++ k.capabilities.map .capability ++ [.any]

end Kind

namespace Factory

/-- The transforms to try for a kind, told without a search. -/
def flat (f : Factory) (k : Kind) : List Transform :=
  if f.transformsFor (.kind k) ≠ [] then f.transformsFor (.kind k)
  else
    k.family.toList.flatMap (fun g => f.transformsFor (.family g))
      ++ k.capabilities.flatMap (fun c => f.transformsFor (.capability c))
      ++ f.transformsFor .any

theorem resolve_eq_flat (f : Factory) (k : Kind) : f.resolve k = f.flat k := by
  unfold resolve flat
  cases hexact : f.transformsFor (.kind k) with
  | cons t ts => exact (if_pos (List.cons_ne_nil t ts)).symm
  | nil =>
    rw [if_neg (fun h => h rfl), Key.ancestors_kind]
    simp only [Key.parents, List.flatMap_append, List.flatMap_singleton, List.flatMap_map]
    cases k.family <;> simp

theorem flat_eq_nil_iff (f : Factory) (k : Kind) :
    f.flat k = [] ↔ ∀ key ∈ k.keys, f.transformsFor key = [] := by
  unfold flat Kind.keys
  split
  · next hexact =>
    refine iff_of_false hexact fun hall => hexact (hall _ ?_)
    simp
  · next hexact =>
    have hnone : f.transformsFor (.kind k) = [] := not_not.1 hexact
    simp [or_imp, forall_and, hnone]

end Factory

theorem candidates_build (factories : List Factory) (k : Kind) :
    (DispatchTable.build factories).candidates k = resolve factories k := by
  simp [DispatchTable.candidates, DispatchTable.build, Kind.getElem?_all_index]

/-! Setting up a generator. -/

namespace Generator

inductive Step where
  | withFactory (f : Factory)
  | withFormat (f : Format)
  | withMaxDepth (n : Nat)
  | fresh

namespace Step

def apply (g : Generator) : Step → Generator
  | withFactory f => g.withFactory f
  | withFormat f => g.withFormat f
  | withMaxDepth n => g.withMaxDepth n
  | fresh => g.fresh

def factory? : Step → Option Factory
  | withFactory f => some f
  | withFormat _ | withMaxDepth _ | fresh => none

end Step

def setUp (g : Generator) (steps : List Step) : Generator := steps.foldl Step.apply g

/-- The table is that of the factories, and so never out of date. -/
def UpToDate (g : Generator) : Prop := g.table = .build g.factories

theorem upToDate_new (f : Factory) (d : Dependencies) (current : Format) :
    ((new f d).run current).1.UpToDate := rfl

variable {g : Generator}

theorem UpToDate.apply (h : g.UpToDate) (s : Step) : (s.apply g).UpToDate := by
  cases s with
  | withFactory f => rfl
  | withFormat | withMaxDepth | fresh => exact h

theorem factories_apply (g : Generator) (s : Step) :
    (s.apply g).factories = g.factories ++ s.factory?.toList := by
  cases s with
  | withFactory f => rfl
  | withFormat | withMaxDepth | fresh => exact (List.append_nil _).symm

theorem UpToDate.setUp (h : g.UpToDate) (steps : List Step) : (g.setUp steps).UpToDate := by
  induction steps generalizing g with
  | nil => exact h
  | cons s steps ih => exact ih (h.apply s)

theorem factories_setUp (g : Generator) (steps : List Step) :
    (g.setUp steps).factories = g.factories ++ steps.filterMap Step.factory? := by
  induction steps generalizing g with
  | nil => exact (List.append_nil _).symm
  | cons s steps ih =>
    have hrest := ih (s.apply g)
    rw [factories_apply] at hrest
    refine hrest.trans ?_
    cases hs : s.factory? <;> simp [hs]

/-- What is tried for a kind, however a generator was set up: what each factory gives by the flat
rule, in the order in which the factories were added. -/
theorem candidates_setUp (f : Factory) (d : Dependencies) (current : Format) (steps : List Step)
    (k : Kind) :
    let g := ((new f d).run current).1.setUp steps
    let factories := f :: steps.filterMap Step.factory?
    g.dispatcher.table.candidates k = factories.flatMap (fun f => (f.flat k).map (⟨f, ·⟩))
      ∧ (g.dispatcher.table.candidates k = [] ↔
        ∀ f ∈ factories, ∀ key ∈ k.keys, f.transformsFor key = []) := by
  intro g factories
  have htable : g.table = .build g.factories := (upToDate_new f d current).setUp steps
  have hfactories : g.factories = factories := factories_setUp _ steps
  have hcandidates : g.dispatcher.table.candidates k =
      factories.flatMap fun f => (f.flat k).map (⟨f, ·⟩) := by
    calc g.dispatcher.table.candidates k
      _ = resolve factories k := by
        rw [dispatcher, htable, hfactories, candidates_build]
      _ = factories.flatMap fun f => (f.flat k).map (⟨f, ·⟩) := by
        simp only [resolve, Factory.resolve_eq_flat]
  refine ⟨hcandidates, ?_⟩
  rw [hcandidates, List.flatMap_eq_nil_iff]
  simp only [List.map_eq_nil_iff, Factory.flat_eq_nil_iff]

end Generator

end Scribe
