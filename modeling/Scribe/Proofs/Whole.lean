import Scribe.Proofs.Java.Imports
import Scribe.Proofs.Java.Written
import Scribe.Proofs.Markup.Complete

/-!
Each node with the binding of its own language, in a session of any state: within a limit that is no
lower than the height of the node nothing is lost.
-/
namespace Scribe

def Node.binding (n : Node) : Binding := if n.kind.isMarkup then Markup.binding else Java.binding

theorem Java.not_excused_of_isMarkup (stack : Stack) (n : Node) (d : Dependencies)
    (h : n.kind.isMarkup) : ¬ Excused stack n d := by
  obtain ⟨item, place⟩ := n
  cases item with
  | document | declaration | tag | tagAttribute | text => exact id
  | value v => cases v <;> exact nomatch h
  | _ => exact nomatch h

theorem Node.binding_complete (n : Node) : ∃ sort : Item → Prop, sort n.item
    ∧ n.binding.Complete sort Item.rank Java.Excused := by
  unfold binding
  split
  · next h => exact ⟨_, h, Markup.complete Java.not_excused_of_isMarkup⟩
  · next h => exact ⟨_, eq_false_of_ne_true h, Java.complete⟩

theorem Node.overflows_iff_overlong {n : Node} {d : Dependencies} {f : Format}
    {maxDepth height limit : Nat} (hheight : (n.binding.session d f maxDepth).HasHeight n height)
    (hlimit : height ≤ limit) : (n.binding.session d f limit).overflows n ↔ n.item.Overlong := by
  unfold binding at hheight ⊢
  split at hheight
  · next hmarkup =>
    rw [if_pos hmarkup]
    refine iff_of_false (Markup.not_overflows n d f limit) ?_
    rintro ⟨t, hwrites, -⟩
    exact Item.not_writes_of_isMarkup hmarkup hwrites
  · next hmarkup =>
    rw [if_neg hmarkup]
    exact Java.overflows_iff_overlong (eq_false_of_ne_true hmarkup) hheight hlimit

/-- Every node has a height. From that limit on its rendering breaks off just when a type is written
for it that has too many dimensions. Otherwise it gives text unless it is excused, so does all that
is rendered for it, and a higher limit makes no difference. -/
theorem whole_unless_overlong (n : Node) (d : Dependencies) (f : Format) (maxDepth : Nat) :
    let g := n.binding.session d f maxDepth
    (∃ height, g.HasHeight n height)
      ∧ ∀ height limit, g.HasHeight n height → height ≤ limit →
        ((g.withMaxDepth limit).overflows n ↔ n.item.Overlong)
        ∧ (¬ n.item.Overlong → (g.withMaxDepth limit).Whole Java.Excused n) := by
  obtain ⟨sort, hsort, hcomplete⟩ := n.binding_complete
  refine ⟨hcomplete.exists_height hsort f d maxDepth, ?_⟩
  intro height limit hheight hlimit
  refine ⟨Node.overflows_iff_overlong hheight hlimit, fun hoverlong => ?_⟩
  refine hcomplete.whole hsort hheight hlimit fun larger hlarger => ?_
  rw [Node.overflows_iff_overlong hheight (Nat.le_trans hlimit hlarger)]
  exact hoverlong

def hangar (dimensions : UInt64) : File where
  name := "A.java"
  classes := [.classDecl {
    name := "A"
    fields := [{ name := "x", type := { name := "int", dimensions } }] }]

/-- Four nodes are on the stack at once, down to the type of the field. With one dimension nothing is
lost from there on; with as many as can be counted the file is still valid, but it breaks off. -/
theorem whole_unless_overlong_hangar :
    let n (dimensions : UInt64) : Node := ⟨.file (hangar dimensions), []⟩
    let g := Java.binding.session Java.dependencies {} 4
    let most : UInt64 := 18446744073709551615
    (g.HasHeight (n 1) 4 ∧ g.Whole Java.Excused (n 1))
      ∧ (hangar most).validate = .ok () ∧ g.HasHeight (n most) 4 ∧ g.overflows (n most) := by
  intro n g most
  have hheight (dimensions : UInt64) (hpeak : peak ((g.withMaxDepth 5).visits (n dimensions)) = 4) :
      g.HasHeight (n dimensions) 4 := by
    rw [← hpeak]
    exact Java.complete.hasHeight_of_peak_lt rfl (lt_of_eq_of_lt hpeak (by decide)) _
  have hone : g.HasHeight (n 1) 4 := hheight 1 (by decide +kernel)
  have hmost : g.HasHeight (n most) 4 := hheight most (by decide +kernel)
  obtain ⟨hbreaks, hwhole⟩ := (whole_unless_overlong (n 1) _ _ _).2 4 4 hone (Nat.le_refl 4)
  have hfits : ¬ g.overflows (n 1) := by decide +kernel
  refine ⟨⟨hone, hwhole fun hlong => hfits (hbreaks.2 hlong)⟩, by decide +kernel, hmost, ?_⟩
  refine ((whole_unless_overlong (n most) _ _ _).2 4 4 hmost (Nat.le_refl 4)).1.2 ?_
  refine ⟨{ name := "int", dimensions := most }, ⟨_, List.mem_cons_self, ?_⟩, by decide⟩
  refine .inside (m := .field { name := "x", type := { name := "int", dimensions := most } }) ?_ ?_
  · simp [Item.slot, Item.ofTypeDecl]
  · exact .inside (by simp [Item.slot]) (.self _ _)

end Scribe
