import Scribe.Model.Codec
import Scribe.Model.Validation
import Scribe.Proofs.Java.Complete
import Scribe.Proofs.Render.Overflow

/-!
When the rendering of Java breaks off. Every kind has its slot in the table, and the depth limit
bounds the stack. But nothing bounds the dimensions of a type: with one pair of brackets for each,
their text can be longer than texts are.
-/
namespace Scribe.Java

open Script

variable {f : Format} {remaining : Nat} {stack : Stack} {all : Bool} {n : Node} {d : Dependencies}

/-- The runs that break off are those on types with too many dimensions. -/
theorem overflows_of_transform? {t : Transform} (h : transform? n.kind = some t) :
    t.overflows n ↔ ∃ x, n.item = .type x ∧ Text.capacity < 2 * x.dimensions.toNat := by
  obtain ⟨item, place⟩ := n
  cases item with
  | type x =>
    cases h
    have hsize : "[]".utf8ByteSize = 2 := by decide
    simp [typeTransform, Text.fits, hsize, Nat.mul_comm]
  | value v =>
    have hvalue : transform? v.kind = some valueTransform := by cases v <;> rfl
    cases hvalue.symm.trans h
    exact iff_of_false nofun nofun
  | document | declaration | tag | tagAttribute | text => exact nomatch h
  | _ =>
    cases h
    exact iff_of_false nofun nofun

theorem node_of_importDecl (h : n.kind = .importDecl) {v : Visit}
    (hv : v ∈ (dispatcher f).visits remaining stack all n d) : v.node = n := by
  obtain ⟨item, place⟩ := n
  cases item with
  | importDecl i =>
    cases remaining with
    | zero => exact nomatch hv
    | succ remaining =>
      rcases (Binding.mem_visits_succ (b := binding)).1 hv with ⟨t, -, rfl⟩ | ⟨a, ha, -⟩
      · rfl
      · have hasks : (script ⟨f, stack.push ⟨.importDecl i, place⟩⟩ ⟨.importDecl i, place⟩).asks
            (below f remaining stack ⟨.importDecl i, place⟩) d = [] :=
          (run_importDecl _ i place _ d).2
        exact nomatch hasks ▸ ha
  | value v => cases v <;> exact nomatch h
  | _ => exact nomatch h

/-- What is rendered for a node stands inside it, but for the imports of a file. -/
theorem within_of_mem_visits {v : Visit}
    (hv : v ∈ (dispatcher f).visits remaining stack all n d) :
    n.item.Within v.node.item ∨ v.node.kind = .importDecl := by
  induction remaining generalizing stack all n d with
  | zero => exact nomatch hv
  | succ remaining ih =>
    rcases (Binding.mem_visits_succ (b := binding)).1 hv with ⟨t, -, rfl⟩ | ⟨a, ha, hv⟩
    · exact .inl .refl
    have hinner (h : n.item.Holds a.node.item) :
        n.item.Within v.node.item ∨ v.node.kind = .importDecl := (ih hv).imp_left (.head h)
    by_cases hfile : n.kind = .file
    · obtain ⟨x, place, rfl⟩ := eq_file_of_kind hfile
      obtain ⟨-, hholds | ⟨name, himport⟩⟩ := asks_file ha
      · exact hinner hholds
      · have hkind : a.node.kind = .importDecl := by rw [Node.kind, himport]; rfl
        exact .inr (node_of_importDecl hkind hv ▸ hkind)
    · exact hinner (asks_script hfile ha).2

theorem overflows_session_iff {maxDepth : Nat} : (binding.session d f maxDepth).overflows n ↔
    ∃ v ∈ (binding.session d f maxDepth).visits n, ∃ t, v.node.item = .type t
      ∧ Text.capacity < 2 * t.dimensions.toNat := by
  rw [Generator.overflows, Dispatcher.overflows_eq_any, List.any_eq_true]
  refine exists_congr fun v => and_congr_right fun hv => ?_
  have hrun : transform? v.node.kind = some v.candidate.transform :=
    (Binding.candidate_of_mem_visits (b := binding) hv).2
  exact overflows_of_transform? hrun

/-- Whatever is rendered, each kind has its slot in the table and the stack's length does not
overflow; but the rendering breaks off just when a type is rendered that has more than half as many
dimensions as a text can have bytes. This can be any type inside the node. -/
theorem overflows_iff (d : Dependencies) (f : Format) (maxDepth : UInt64) (n : Node) :
    let g := binding.session d f maxDepth.toNat
    (∀ k : Kind, (g.table.slots[k.index]?).isSome)
      ∧ (∀ v ∈ g.visits n, (v.stack.push v.node).depth < UInt64.size)
      ∧ (g.overflows n ↔ ∃ v ∈ g.visits n, ∃ t, v.node.item = .type t
        ∧ n.item.Within (.type t) ∧ Text.capacity < 2 * t.dimensions.toNat) := by
  intro g
  refine ⟨DispatchTable.isSome_slots_build [factory], fun v hv => ?_, ?_⟩
  · have hlt := Dispatcher.depth_lt_of_mem_visits hv
    have hempty : ({} : Stack).depth = 0 := rfl
    have hmax : g.maxDepth < UInt64.size := maxDepth.toNat_lt
    rw [Stack.depth_push]
    omega
  · rw [overflows_session_iff]
    refine exists_congr fun v => and_congr_right fun hv => ?_
    refine exists_congr fun t => and_congr_right fun ht => ?_
    have hwithin : n.item.Within (.type t) := by
      rcases within_of_mem_visits hv with hwithin | himport
      · exact ht ▸ hwithin
      · have hkind : v.node.kind = .type := congrArg Item.kind ht
        exact absurd (hkind.symm.trans himport) (by decide)
    exact (and_iff_right hwithin).symm

def vault : String :=
  "\x7b\"name\":\"V.java\",\"classes\":[\x7b\"class\":\x7b\"name\":\"V\",\"fields\":["
    ++ "\x7b\"name\":\"x\",\"type\":\x7b\"name\":\"int\",\"dimensions\":18446744073709551615"
    ++ "\x7d\x7d]\x7d\x7d]\x7d"

/-- Whether a text is read as a file that is valid but cannot be rendered within a depth limit. -/
def breaksOff (text : String) (maxDepth : UInt64) : Bool :=
  match (Json.decode text : Except Json.ReadError File) with
  | .ok x => x.validate = .ok ()
    && (binding.session dependencies {} maxDepth.toNat).overflows ⟨.file x, []⟩
  | .error _ => false

theorem overflows_vault : ∃ x : File, Json.decode vault = .ok x ∧ x.validate = .ok ()
    ∧ ∃ v ∈ (binding.session dependencies {} 4).visits ⟨.file x, []⟩, ∃ t,
      v.node.item = .type t ∧ (Item.file x).Within (.type t)
        ∧ Text.capacity < 2 * t.dimensions.toNat := by
  have hbreaks : breaksOff vault 4 = true := by decide +kernel
  unfold breaksOff at hbreaks
  cases hread : (Json.decode vault : Except Json.ReadError File) with
  | error e => exact nomatch hread ▸ hbreaks
  | ok x =>
    rw [hread, Bool.and_eq_true, decide_eq_true_eq] at hbreaks
    obtain ⟨hvalid, hoverflows⟩ := hbreaks
    exact ⟨x, rfl, hvalid, (overflows_iff dependencies {} 4 ⟨.file x, []⟩).2.2.1 hoverflows⟩

end Scribe.Java
