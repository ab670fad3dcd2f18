import Scribe.Markup.Binding
import Scribe.Proofs.Render.Overflow
import Scribe.Proofs.Render.Quiet

/-!
Sessions with the markup factory alone. Every transform gives text, whatever comes of the children.
-/
namespace Scribe.Markup

open Script

def transform? : Kind → Option Transform
  | .document => some documentTransform
  | .declaration => some declarationTransform
  | .tag => some tagTransform
  | .tagAttribute => some attributeTransform
  | .text => some textTransform
  | _ => none

theorem resolve_factory (k : Kind) : factory.resolve k = (transform? k).toList := by
  cases k <;> rfl

def binding : Binding := ⟨factory, transform?, resolve_factory⟩

theorem run_generator (f : Format) :
    (generator.run f).1 = binding.session {} f Generator.defaultMaxDepth := rfl

variable (ctx : Context) (place : Place)

theorem quiet_renderDocument (f : Format) (d : Document) :
    Quiet (Item.document d).Holds (renderDocument f ⟨.document d, place⟩ d) := by
  refine quiet_bind (quiet_parts fun e he => ?_) fun texts => quiet_pure _
  exact Item.holds_iff.2 (.inr (List.mem_map_of_mem he))

theorem quiet_renderTag (f : Format) (t : Tag) :
    Quiet (Item.tag t).Holds (renderTag f ⟨.tag t, place⟩ t) := by
  refine quiet_bind (quiet_parts (by simp +contextual)) fun attributes => ?_
  dsimp only
  split
  · exact quiet_pure _
  · next text hchildren =>
    refine quiet_bind (quiet_text? ?_) fun _ => quiet_pure _
    simp [Node.part, hchildren, Item.ofElement]
  · refine quiet_bind (quiet_parts fun e he => ?_) fun _ => quiet_pure _
    exact Item.holds_iff.2 (.inr (List.mem_append_right _ (List.mem_map_of_mem he)))

theorem quiet_script (n : Node) : Quiet n.item.Holds (binding.script ctx n) := by
  obtain ⟨item, place⟩ := n
  cases item with
  | document d => exact quiet_bind (quiet_renderDocument place ctx.format d) fun _ => quiet_pure _
  | tag t => exact quiet_bind (quiet_renderTag place ctx.format t) fun _ => quiet_pure _
  | value v => cases v <;> exact quiet_pure _
  | _ => exact quiet_pure _

theorem isSome_script {n : Node} (h : n.kind.isMarkup) (c : Children) (d : Dependencies) :
    ((binding.script ctx n).run c d).1.isSome := by
  obtain ⟨item, place⟩ := n
  cases item with
  | document x =>
    change ((renderDocument ctx.format _ x >>= fun text => pure (some text)).run c d).1.isSome
    rw [run_monadBind]
    rfl
  | tag x =>
    change ((renderTag ctx.format _ x >>= fun text => pure (some text)).run c d).1.isSome
    rw [run_monadBind]
    rfl
  | declaration | tagAttribute | text => rfl
  | value v => cases v <;> exact nomatch h
  | _ => exact nomatch h

theorem complete {excused : Stack → Node → Dependencies → Prop}
    (hexcused : ∀ stack (n : Node) d, n.kind.isMarkup → ¬ excused stack n d) :
    binding.Complete (fun i => i.kind.isMarkup) Item.rank excused where
  asks h ha := by
    obtain ⟨hall, hm⟩ := (quiet_script _ _).asks ha
    exact ⟨hall, (Item.isMarkup_of_holds hm).trans h, Item.rank_lt_of_holds hm⟩
  text {f remaining stack n d} h _ := by
    have hsome := isSome_script ⟨f, stack.push n⟩ h (binding.below f remaining stack n) d
    rw [← Option.ne_none_iff_isSome] at hsome
    exact iff_of_false hsome (hexcused stack n d h)

theorem not_overflows (n : Node) (d : Dependencies) (f : Format) (maxDepth : Nat) :
    ¬ (binding.session d f maxDepth).overflows n := by
  rw [Generator.overflows, Dispatcher.overflows_eq_any, List.any_eq_true]
  rintro ⟨v, hv, hoverflows⟩
  have hrun := (Binding.candidate_of_mem_visits (b := binding) hv).2
  have hnever {k : Kind} {t : Transform} (h : transform? k = some t) (m : Node) :
      t.overflows m = false := by
    cases k <;> cases h <;> rfl
  rw [hnever hrun] at hoverflows
  exact nomatch hoverflows

end Scribe.Markup
