import Scribe.Proofs.Java.Overflow
import Scribe.Proofs.Java.Reordered

/-!
What is written for an item. Within a great enough limit each node has all its children rendered, so
what comes to be rendered stands in the tree, and it can be told from the tree whether the rendering
breaks off.
-/
namespace Scribe

namespace Item

/-- An item is written for another one, whose parent is of some kind. -/
inductive Written : (parent : Option Kind) → Item → Item → Prop
  | self (parent : Option Kind) (i : Item) : Written parent i i
  | inside {parent : Option Kind} {i m k : Item} (hm : m ∈ i.children parent)
    (hk : Written (some i.kind) m k) : Written parent i k

/-- The types that are written for an item without a parent. A file only writes types in its classes,
and a constructor that stands alone is not written at all. -/
def Writes : Item → TypeRef → Prop
  | file x, t => ∃ c ∈ x.classes, (ofTypeDecl c).Written (some .file) (type t)
  | constructor _, _ => False
  | i, t => i.Written none (type t)

/-- A type is written whose brackets are more than a text can have. -/
def Overlong (i : Item) : Prop := ∃ t, i.Writes t ∧ Text.capacity < 2 * t.dimensions.toNat

theorem not_writes_of_isMarkup {i : Item} {t : TypeRef} (h : i.kind.isMarkup) : ¬ i.Writes t := by
  cases i with
  | document | declaration | tag | tagAttribute | text =>
    intro hwrites
    cases hwrites with
    | inside hm => exact absurd hm List.not_mem_nil
  | value v => cases v <;> exact nomatch h
  | _ => exact nomatch h

end Item

namespace Java

open Script

variable {f : Format} {remaining : Nat} {stack : Stack} {n : Node} {d : Dependencies}

/-- Within a great enough limit just the items that are written for a node are rendered. -/
theorem exists_visit_iff (hfile : n.kind ≠ .file) (hmarkup : n.kind.isMarkup = false)
    (henclosed : Enclosed stack n) (hrank : n.item.rank < remaining) (k : Item) :
    (∃ v ∈ (dispatcher f).visits remaining stack false n d, v.node.item = k) ↔
      n.item.Written (stack.top?.map Node.kind) k := by
  -- What a script asks for are just the children of its item, so the visits go down as the relation.
  induction remaining generalizing stack n d with
  | zero => exact absurd hrank (Nat.not_lt_zero _)
  | succ remaining ih =>
    have hle : n.item.rank ≤ remaining := Nat.le_of_lt_succ hrank
    have hchildren := map_item_asks (f := f) (d := d) hfile hmarkup hle henclosed
    have hchild {a : Ask}
        (ha : a ∈ (script ⟨f, stack.push n⟩ n).asks (below f remaining stack n) d) :
        (∃ v ∈ (dispatcher f).visits remaining (stack.push n) a.all a.node a.before,
          v.node.item = k) ↔ a.node.item.Written (some n.kind) k := by
      obtain ⟨hall, hamarkup, harank⟩ := asks_lower hmarkup ha
      have hholds := (asks_script hfile ha).2
      rw [hall]
      exact ih (Item.ne_file_of_holds hholds) hamarkup (enclosed_of_holds hholds) (by omega)
    constructor
    · rintro ⟨v, hv, rfl⟩
      rcases (Binding.mem_visits_succ (b := binding)).1 hv with ⟨t, -, rfl⟩ | ⟨a, ha, hv⟩
      · exact .self _ n.item
      · refine .inside ?_ ((hchild ha).1 ⟨v, hv, rfl⟩)
        rw [← hchildren]
        exact List.mem_map_of_mem ha
    · intro hk
      cases hk with
      | self =>
        obtain ⟨t, ht⟩ := exists_transform hmarkup
        let v := ownVisit f remaining stack n d t
        exact ⟨v, (Binding.mem_visits_succ (b := binding)).2 (.inl ⟨t, ht, rfl⟩), rfl⟩
      | inside hm hk =>
        rw [← hchildren] at hm
        obtain ⟨a, ha, rfl⟩ := List.mem_map.1 hm
        obtain ⟨v, hv, hitem⟩ := (hchild ha).2 hk
        exact ⟨v, (Binding.mem_visits_succ (b := binding)).2 (.inr ⟨a, ha, hv⟩), hitem⟩

theorem exists_type_visit_file_iff {x : File} {place : Place}
    (hrank : (Item.file x).rank ≤ remaining) (t : TypeRef) :
    (∃ v ∈ body f remaining {} x place d, v.node.item = .type t) ↔ (Item.file x).Writes t := by
  obtain ⟨asks, hbody, hitems, hasks⟩ := body_eq f remaining {} x place d
  rw [hbody]
  let n : Node := ⟨.file x, place⟩
  have hclass {a : Ask} (ha : a ∈ classAsks f remaining {} x place d) :
      (∃ v ∈ (dispatcher f).visits remaining (Stack.push {} n) a.all a.node a.before,
        v.node.item = .type t) ↔ a.node.item.Written (some .file) (.type t) := by
    obtain ⟨hall, hrenders⟩ := hasks a (List.mem_append_left _ ha)
    have hlt := rank_lt_of_renders hrenders
    rw [hall]
    exact exists_visit_iff (File.ne_file_of_renders hrenders) (isMarkup_of_renders hrenders)
      (fun h => absurd h (ne_constructor_of_renders hrenders)) (by omega) _
  have hmem (i : Item) : i ∈ (classAsks f remaining {} x place d).map (·.node.item) ↔
      ∃ c ∈ x.classes, .ofTypeDecl c = i := by
    rw [map_item_classAsks]
    exact List.mem_map
  constructor
  · rintro ⟨v, hv, ht⟩
    rw [visitsOf, List.flatMap_append] at hv
    rcases List.mem_append.1 hv with hv | hv
    · obtain ⟨a, ha, hv⟩ := List.mem_flatMap.1 hv
      obtain ⟨c, hc, hitem⟩ := (hmem a.node.item).1 (List.mem_map_of_mem ha)
      exact ⟨c, hc, hitem ▸ (hclass ha).1 ⟨v, hv, ht⟩⟩
    · have hall : ∀ a ∈ asks, a.all = false := fun a ha => (hasks a (List.mem_append_right _ ha)).1
      have hnone := type?_visitsOf_trailing hitems hall hv
      rw [ht] at hnone
      exact absurd hnone (Option.some_ne_none t)
  · rintro ⟨c, hc, hwritten⟩
    obtain ⟨a, ha, hitem⟩ := List.mem_map.1 ((hmem _).2 ⟨c, hc, rfl⟩)
    obtain ⟨v, hv, ht⟩ := (hclass ha).2 (hitem ▸ hwritten)
    exact ⟨v, List.mem_flatMap.2 ⟨a, List.mem_append_left _ ha, hv⟩, ht⟩

theorem exists_type_visit_iff (hmarkup : n.kind.isMarkup = false) (hrank : n.item.rank < remaining)
    (t : TypeRef) : (∃ v ∈ (dispatcher f).visits remaining {} false n d, v.node.item = .type t) ↔
      n.item.Writes t := by
  obtain ⟨remaining, rfl⟩ := Nat.exists_eq_add_of_lt (Nat.zero_lt_of_lt hrank)
  rw [Nat.zero_add] at hrank ⊢
  have hvisit (hfile : n.kind ≠ .file) (hconstructor : n.kind ≠ .constructor) :
      (∃ v ∈ (dispatcher f).visits (remaining + 1) {} false n d, v.node.item = .type t) ↔
        n.item.Written none (.type t) :=
    exists_visit_iff hfile hmarkup (fun h => absurd h hconstructor) hrank _
  obtain ⟨item, place⟩ := n
  cases item with
  | file x =>
    rw [visits_file, List.exists_mem_cons_iff, or_iff_right nofun]
    exact exists_type_visit_file_iff (Nat.le_of_lt_succ hrank) t
  | constructor c =>
    rw [visits_of_transform f remaining {} _ d rfl, List.exists_mem_cons_iff, or_iff_right nofun]
    exact iff_of_false (fun ⟨v, hv, _⟩ => nomatch hv) id
  | document | declaration | tag | tagAttribute | text => exact nomatch hmarkup
  | value v => exact hvisit (by cases v <;> nofun) (by cases v <;> nofun)
  | _ => exact hvisit nofun nofun

/-- From the height of a node on, whether its rendering breaks off depends on nothing but its item. -/
theorem overflows_iff_overlong {maxDepth height limit : Nat} (hmarkup : n.kind.isMarkup = false)
    (hheight : (binding.session d f maxDepth).HasHeight n height) (hlimit : height ≤ limit) :
    (binding.session d f limit).overflows n ↔ n.item.Overlong := by
  -- The visits are those within a limit that is above the rank as well, which write each type.
  have halike := complete.alike_of_height hmarkup hheight hlimit
    (Nat.le_max_left limit (n.item.rank + 1))
  have hvisits : (binding.session d f limit).visits n = _ := halike.visits
  have hrank : n.item.rank < max limit (n.item.rank + 1) := Nat.le_max_right _ _
  rw [overflows_session_iff, hvisits]
  constructor
  · rintro ⟨v, hv, t, ht, hlong⟩
    exact ⟨t, (exists_type_visit_iff hmarkup hrank t).1 ⟨v, hv, ht⟩, hlong⟩
  · rintro ⟨t, hwrites, hlong⟩
    obtain ⟨v, hv, ht⟩ := (exists_type_visit_iff hmarkup hrank t).2 hwrites
    exact ⟨v, hv, t, ht, hlong⟩

end Java

end Scribe
