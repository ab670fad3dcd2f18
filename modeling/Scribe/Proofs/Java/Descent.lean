import Scribe.Proofs.Java.Session
import Scribe.Proofs.Render.Quiet
import Scribe.Proofs.Render.Yields

/-!
Properties of rendered text that are proved from the inside outwards: whatever is rendered for an
item below a file has the property, as soon as each transform gives it to its own text once the
texts of its children have it.
-/
namespace Scribe.Java

open Script

variable {P : Item → String → Prop} {I : Dependencies → Prop} {c : Children} {n : Node}

def Answers (P : Item → String → Prop) (c : Children) (I : Dependencies → Prop) (n : Node) : Prop :=
  ∀ m : Node, n.item.Holds m.item → Gives c I (P m.item) (text? m)

theorem Answers.parts (hc : Answers P c I n) {slot : Slot} {as : List α} {item : α → Item}
    (h : ∀ a ∈ as, n.item.Holds (item a)) {Q : String → Prop} (hQ : ∀ a t, P (item a) t → Q t) :
    Yields c I (fun ts => ∀ t ∈ ts, Q t) (texts (n.parts slot (as.map item))) := by
  refine yields_texts fun m hm => ?_
  obtain ⟨a, ha, place, rfl⟩ := mem_parts hm
  exact (hc ⟨item a, place⟩ (h a ha)).mono fun r hr t ht => hQ a t (hr t ht)

theorem gives_first {R : Item → Prop} {f : Format} (hR : ∀ i m, R i → i.Holds m → R m)
    (hscript : ∀ (c : Children) (stack : Stack) (n : Node), n.kind ≠ .file → R n.item → (∀ m ∈ stack.nodes, R m.item) →
      Answers P c I n → Gives c I (P n.item) (script ⟨f, stack.push n⟩ n))
    (remaining : Nat) {stack : Stack} (hfile : n.kind ≠ .file) (hn : R n.item)
    (hstack : ∀ m ∈ stack.nodes, R m.item) :
    Gives ((dispatcher f).children remaining stack) I (P n.item) (text? n) := by
  induction remaining generalizing stack n with
  | zero => exact fun d hd => ⟨fun _ ht => (nomatch ht), hd⟩
  | succ remaining ih =>
    have hanswers : Answers P (below f remaining stack n) I n := by
      intro m hm
      refine ih (Item.ne_file_of_holds hm) (hR _ _ hn hm) fun k hk => ?_
      rcases List.mem_cons.1 hk with rfl | hk
      · exact hn
      · exact hstack k hk
    intro d hd
    obtain ⟨htext, he⟩ := hscript _ stack n hfile hn hstack hanswers d hd
    rw [run_text?, text_first, dependencies_first]
    exact ⟨htext, he⟩

end Scribe.Java
