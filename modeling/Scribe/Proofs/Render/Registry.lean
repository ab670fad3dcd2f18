import Scribe.Render.Factory
import Mathlib.Data.List.Induction

/-!
A factory told by its history. Whatever was installed, set and removed and in whatever order, what
is registered for a key depends on the operations on that key alone, and of these on the last one
that discards what was there and on those after it. No entry is ever empty, so that taking one out
succeeds just where something is registered.
-/
namespace Scribe.Factory

inductive Operation
  | install (k : Key) (t : Transform)
  | set (k : Key) (t : Transform)
  | remove (k : Key)

namespace Operation

def key : Operation → Key
  | install k _ | set k _ | remove k => k

def added? (k : Key) : Operation → Option Transform
  | install k' t => if k' = k then some t else none
  | set _ _ | remove _ => none

/-- What stands alone where an operation has discarded the rest. -/
def left? : Operation → Option Transform
  | set _ t => some t
  | install _ _ | remove _ => none

def apply (f : Factory) : Operation → Factory
  | install k t => f.install k t
  | set k t => f.set k t
  | remove k => (f.remove k).2

/-- What was registered for a key is gone after an operation. -/
def Discards (k : Key) : Operation → Prop
  | install _ _ => False
  | set k' _ | remove k' => k' = k

end Operation

def run (f : Factory) (history : List Operation) : Factory := history.foldl Operation.apply f

def installs (k : Key) (history : List Operation) : List Transform :=
  history.filterMap (·.added? k)

variable {f f' : Factory} {history : List Operation} {k : Key}

theorem run_append (f : Factory) (history more : List Operation) :
    f.run (history ++ more) = (f.run history).run more :=
  List.foldl_append

theorem run_concat (f : Factory) (history : List Operation) (op : Operation) :
    f.run (history ++ [op]) = op.apply (f.run history) := by
  rw [run_append]
  rfl

/-! One operation. -/

theorem entries_apply_of_ne {op : Operation} (h : op.key ≠ k) :
    (op.apply f).entries k = f.entries k := by
  cases op with
  | install | set | remove => exact entries_replace_of_ne (Ne.symm h)

/-- What an operation makes of the entry of its key depends on that entry alone. -/
theorem entries_apply_congr (op : Operation) (h : f.entries op.key = f'.entries op.key) :
    (op.apply f).entries op.key = (op.apply f').entries op.key := by
  cases op with
  | install k t =>
    have hsame : f.transformsFor k = f'.transformsFor k := congrArg (·.getD []) h
    simp [Operation.apply, Operation.key, install, hsame]
  | set k t => simp [Operation.apply, Operation.key, set]
  | remove k => simp [Operation.apply, Operation.key, remove]

theorem transformsFor_apply_of_discards {op : Operation} (h : op.Discards k) :
    (op.apply f).transformsFor k = op.left?.toList := by
  cases op with
  | install => exact h.elim
  | set k' t =>
    obtain rfl : k' = k := h
    simp [Operation.apply, Operation.left?, set, transformsFor]
  | remove k' =>
    obtain rfl : k' = k := h
    simp [Operation.apply, Operation.left?, remove, transformsFor]

theorem transformsFor_apply {op : Operation} (h : ¬ op.Discards k) :
    (op.apply f).transformsFor k = f.transformsFor k ++ (op.added? k).toList := by
  by_cases hkey : op.key = k
  · cases op with
    | install k' t =>
      obtain rfl : k' = k := hkey
      simp [Operation.apply, Operation.added?, install, transformsFor]
    | set => exact absurd hkey h
    | remove => exact absurd hkey h
  · have hnone : op.added? k = none := by
      cases op with
      | install k' t => exact if_neg hkey
      | set | remove => rfl
    rw [hnone, Option.toList_none, List.append_nil]
    exact congrArg (·.getD []) (entries_apply_of_ne hkey)

theorem entries_apply_ne_nil (h : ∀ k, f.entries k ≠ some []) (op : Operation) (k : Key) :
    (op.apply f).entries k ≠ some [] := by
  by_cases hkey : op.key = k
  · cases op with
    | install k' t =>
      obtain rfl : k' = k := hkey
      simp [Operation.apply, install]
    | set k' t =>
      obtain rfl : k' = k := hkey
      simp [Operation.apply, set]
    | remove k' =>
      obtain rfl : k' = k := hkey
      simp [Operation.apply, remove]
  · rw [entries_apply_of_ne hkey]
    exact h k

/-! Histories. -/

theorem transformsFor_run (h : ∀ op ∈ history, ¬ op.Discards k) :
    (f.run history).transformsFor k = f.transformsFor k ++ installs k history := by
  induction history generalizing f with
  | nil => exact (List.append_nil _).symm
  | cons op history ih =>
    obtain ⟨hop, hhistory⟩ := List.forall_mem_cons.1 h
    have hcons : installs k (op :: history) = (op.added? k).toList ++ installs k history := by
      cases hadded : op.added? k <;> simp [installs, hadded]
    calc (f.run (op :: history)).transformsFor k
      _ = (op.apply f).transformsFor k ++ installs k history := ih hhistory
      _ = f.transformsFor k ++ installs k (op :: history) := by
        rw [transformsFor_apply hop, List.append_assoc, hcons]

theorem transformsFor_run_of_discards (before : List Operation) {op : Operation}
    {since : List Operation} (hop : op.Discards k) (h : ∀ op ∈ since, ¬ op.Discards k) :
    (f.run (before ++ op :: since)).transformsFor k = op.left?.toList ++ installs k since := by
  calc (f.run (before ++ op :: since)).transformsFor k
    _ = ((op.apply (f.run before)).run since).transformsFor k := by rw [run_append]; rfl
    _ = op.left?.toList ++ installs k since := by
      rw [transformsFor_run h, transformsFor_apply_of_discards hop]

theorem entries_run_filter (h : f.entries k = f'.entries k) :
    (f.run history).entries k = (f'.run (history.filter (·.key = k))).entries k := by
  induction history generalizing f f' with
  | nil => exact h
  | cons op history ih =>
    by_cases hkey : op.key = k
    · rw [List.filter_cons_of_pos (by simpa using hkey)]
      subst hkey
      exact ih (entries_apply_congr op h)
    · rw [List.filter_cons_of_neg (by simpa using hkey)]
      exact ih ((entries_apply_of_ne hkey).trans h)

theorem entries_run_ne_nil (h : ∀ k, f.entries k ≠ some []) (history : List Operation) (k : Key) :
    (f.run history).entries k ≠ some [] := by
  induction history using List.reverseRecOn generalizing k with
  | nil => exact h k
  | append_singleton history op ih =>
    rw [run_concat]
    exact entries_apply_ne_nil ih op k

/-- Without empty entries, a key has an entry just where something is registered for it. -/
theorem remove_iff (h : f.entries k ≠ some []) :
    (f.remove k).1 = true ↔ f.transformsFor k ≠ [] := by
  unfold remove transformsFor
  cases hentry : f.entries k with
  | none => simp
  | some ts => simpa [hentry] using h

/-! Every answer. -/

/-- What a factory answers after a history, by the history alone. -/
structure Recounts (f : Factory) (history : List Operation) : Prop where
  /-- Where nothing was discarded, all that was installed is there. -/
  installed : ∀ k, (∀ op ∈ history, ¬ op.Discards k) →
    (f.run history).transformsFor k = installs k history
  /-- Since the last operation that discards, there is what it leaves and then what was installed. -/
  since : ∀ k before op since, history = before ++ op :: since → op.Discards k →
    (∀ op ∈ since, ¬ op.Discards k) →
    (f.run history).transformsFor k = op.left?.toList ++ installs k since
  others : ∀ k, (f.run history).transformsFor k =
    (f.run (history.filter (·.key = k))).transformsFor k
  nonempty : ∀ k, (f.run history).entries k ≠ some []
  remove : ∀ k, ((f.run history).remove k).1 = true ↔ (f.run history).transformsFor k ≠ []

/-- A new factory recounts its history. -/
theorem recounts_new (name : String) (history : List Operation) : Recounts { name } history := by
  have hnone : ∀ k, ({ name } : Factory).entries k ≠ some [] := fun _ => nofun
  refine ⟨?installed, ?since, ?others, ?nonempty, ?remove⟩
  case installed =>
    intro k h
    rw [transformsFor_run h]
    rfl
  case since =>
    rintro k before op since rfl hop h
    exact transformsFor_run_of_discards before hop h
  case others => exact fun k => congrArg (·.getD []) (entries_run_filter rfl)
  case nonempty => exact entries_run_ne_nil hnone history
  case remove => exact fun k => remove_iff (entries_run_ne_nil hnone history k)

end Scribe.Factory
