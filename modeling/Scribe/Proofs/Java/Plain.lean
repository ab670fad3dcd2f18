import Scribe.Proofs.Java.References
import Scribe.Proofs.Java.Reordered

/-!
References in short form. Where no short name met by a reference belongs to another name, the text
of a type is settled by the type alone, down to the last of its arguments.
-/
namespace Scribe

mutual

/-- A type with all names in it written short. -/
def TypeRef.plain : TypeRef → String
  | { name, arguments, dimensions } =>
    Name.short name
      ++ (if arguments.isEmpty then ""
        else "<" ++ ", ".intercalate (TypeArgument.plainAll arguments) ++ ">")
      ++ Text.times dimensions.toNat "[]"

def TypeArgument.plain : TypeArgument → String
  | .type t => t.plain
  | .wildcard g => g.plain

def Generic.plain : Generic → String
  | { name, bounds, kind } =>
    if bounds.isEmpty then name.getD "?"
    else name.getD "?" ++ " " ++ kind.keyword ++ " " ++ " & ".intercalate (TypeRef.plainAll bounds)

def TypeArgument.plainAll : List TypeArgument → List String
  | [] => []
  | a :: as => a.plain :: TypeArgument.plainAll as

def TypeRef.plainAll : List TypeRef → List String
  | [] => []
  | t :: ts => t.plain :: TypeRef.plainAll ts

end

theorem TypeArgument.plainAll_eq_map (as : List TypeArgument) : plainAll as = as.map plain := by
  induction as with
  | nil => rfl
  | cons a as ih => rw [plainAll, ih, List.map_cons]

theorem TypeRef.plainAll_eq_map (ts : List TypeRef) : plainAll ts = ts.map plain := by
  induction ts with
  | nil => rfl
  | cons t ts ih => rw [plainAll, ih, List.map_cons]

theorem TypeRef.plain_eq (t : TypeRef) :
    t.plain = Name.short t.name ++ Java.typeTail t (t.arguments.map (·.plain)) := by
  obtain ⟨name, arguments, dimensions⟩ := t
  rw [plain, TypeArgument.plainAll_eq_map, Java.typeTail, String.append_assoc]

theorem Generic.plain_eq (g : Generic) :
    g.plain = if g.bounds.isEmpty then g.name.getD "?"
      else g.name.getD "?" ++ " " ++ g.kind.keyword ++ " "
        ++ " & ".intercalate (g.bounds.map (·.plain)) := by
  obtain ⟨name, bounds, kind⟩ := g
  rw [plain, TypeRef.plainAll_eq_map]

namespace Item

def plain? : Item → Option String
  | type t => some t.plain
  | generic g => some g.plain
  | _ => none

theorem plain?_ofArgument (a : TypeArgument) : (ofArgument a).plain? = some a.plain := by
  cases a <;> rfl

end Item

namespace Java

open Script

variable {f : Format} {remaining : Nat} {stack : Stack} {n : Node} {d : Dependencies}

theorem run_parts_plain {c : Children} {slot : Slot} {as : List α} {item : α → Item}
    {plain : α → String} (hitem : ∀ a, (item a).plain? = some (plain a))
    (h : ∀ ask ∈ (texts (n.parts slot (as.map item))).asks c d, ∀ text,
      ask.node.item.plain? = some text → ask.texts = [text]) :
    ((texts (n.parts slot (as.map item))).run c d).1 = as.map plain := by
  have hitems :
      ((texts (n.parts slot (as.map item))).asks c d).map (·.node.item) = as.map item := by
    rw [map_item_asks_texts, map_item_parts]
  have htexts : ∀ ask ∈ (texts (n.parts slot (as.map item))).asks c d,
      ask.texts = ask.node.item.plain?.toList := by
    intro ask hask
    have hmem : ask.node.item ∈ as.map item := hitems ▸ List.mem_map_of_mem hask
    obtain ⟨a, -, ha⟩ := List.mem_map.1 hmem
    have hplain : ask.node.item.plain? = some (plain a) := ha ▸ hitem a
    rw [h ask hask _ hplain, hplain]
    rfl
  have hflat := congrArg (List.flatMap fun i : Item => i.plain?.toList) hitems
  rw [List.flatMap_map, List.flatMap_map] at hflat
  rw [run_texts, List.flatMap_congr htexts, hflat, List.map_eq_flatMap]
  exact List.flatMap_congr fun a _ => congrArg Option.toList (hitem a)

/-- No reference that is met finds its short name taken. -/
def Unclashed (visits : List Visit) : Prop :=
  ∀ v ∈ visits, ∀ name, v.reference? = some name → v.before.conflicts name = false

theorem Unclashed.below (hfile : n.kind ≠ .file)
    (h : Unclashed ((dispatcher f).visits (remaining + 1) stack false n d)) {a : Ask}
    (ha : a ∈ (script ⟨f, stack.push n⟩ n).asks (Java.below f remaining stack n) d) :
    Unclashed ((dispatcher f).visits remaining (stack.push n) false a.node a.before) := by
  intro v hv
  apply h
  refine (Binding.mem_visits_succ (b := binding)).2 (.inr ⟨a, ha, ?_⟩)
  rw [(asks_script hfile ha).1]
  exact hv

theorem text_eq_plain {text : String} (hplain : n.item.plain? = some text)
    (hrank : n.item.rank < remaining)
    (h : Unclashed ((dispatcher f).visits remaining stack false n d)) :
    (((dispatcher f).children remaining stack).first n d).1.map (·.text) = some text := by
  -- By the depth that is left, which the rank of an item bounds: each part has a smaller one.
  induction remaining generalizing stack n d text with
  | zero => exact absurd hrank (Nat.not_lt_zero _)
  | succ remaining ih =>
    have hfile : n.kind ≠ .file := by
      obtain ⟨item, place⟩ := n
      cases item with
      | file => exact nomatch hplain
      | value v => cases v <;> nofun
      | _ => nofun
    have hmarkup : n.kind.isMarkup = false := by
      obtain ⟨item, place⟩ := n
      cases item with
      | type | generic => rfl
      | _ => exact nomatch hplain
    have hasks : ∀ a ∈ (script ⟨f, stack.push n⟩ n).asks (below f remaining stack n) d,
        ∀ text, a.node.item.plain? = some text → a.texts = [text] := by
      intro a ha text htext
      obtain ⟨hall, -, hlt⟩ := asks_lower hmarkup ha
      rw [texts_of_mem_asks ha hall, ih htext (by omega) (h.below hfile ha), Option.toList_some]
    rw [text_first]
    obtain ⟨item, place⟩ := n
    cases item with
    | type t =>
      obtain rfl : t.plain = text := Option.some.inj hplain
      have hfree : d.conflicts t.name = false :=
        h (ownVisit f remaining stack ⟨.type t, place⟩ d typeTransform)
          ((Binding.mem_visits_succ (b := binding)).2 (.inl ⟨_, rfl, rfl⟩)) t.name rfl
      have hspelling : d.spelling t.name = Name.short t.name := by
        rw [Dependencies.spelling, hfree]
        rfl
      rw [script_type, asks_monadBind, asks_typeName, List.nil_append, run_typeName, renderTail,
        asks_monadBind, asks_pure, List.append_nil] at hasks
      rw [script_type, run_monadBind, run_typeName, renderTail, run_monadBind,
        run_parts_plain Item.plain?_ofArgument hasks, hspelling, t.plain_eq]
      rfl
    | generic g =>
      obtain rfl : g.plain = text := Option.some.inj hplain
      have hscript : script ⟨f, stack.push ⟨.generic g, place⟩⟩ ⟨.generic g, place⟩ =
          renderGeneric ⟨.generic g, place⟩ g >>= fun text => pure (some text) := rfl
      rw [hscript, asks_monadBind, asks_pure, List.append_nil] at hasks
      rw [hscript, run_monadBind, g.plain_eq]
      unfold renderGeneric at hasks ⊢
      dsimp only at hasks ⊢
      split at hasks
      · next hempty =>
        rw [if_pos hempty, if_pos hempty]
        rfl
      · next hempty =>
        rw [asks_monadBind, asks_pure, List.append_nil] at hasks
        rw [if_neg hempty, if_neg hempty, run_monadBind, run_parts_plain (fun t => rfl) hasks]
        rfl
    | _ => exact nomatch hplain

theorem visit_eq_plain (hfile : n.kind ≠ .file) (hmarkup : n.kind.isMarkup = false)
    (hrank : n.item.rank < remaining)
    (h : Unclashed ((dispatcher f).visits remaining stack false n d)) {v : Visit} {t : TypeRef}
    (hv : v ∈ (dispatcher f).visits remaining stack false n d)
    (hitem : v.node.item.type? = some t) : v.text = some t.plain := by
  induction remaining generalizing stack n d with
  | zero => exact nomatch hv
  | succ remaining ih =>
    rcases (Binding.mem_visits_succ (b := binding)).1 hv with ⟨c, -, rfl⟩ | ⟨a, ha, hv⟩
    · have hplain : n.item.plain? = some t.plain := by
        obtain ⟨item, place⟩ := n
        cases item with
        | type u =>
          obtain rfl : u = t := Option.some.inj hitem
          rfl
        | _ => exact nomatch hitem
      rw [← text_eq_plain hplain hrank h, text_first]
      rfl
    · obtain ⟨hall, hamarkup, hlt⟩ := asks_lower hmarkup ha
      rw [hall] at hv
      exact ih (Item.ne_file_of_holds (asks_script hfile ha).2) hamarkup (by omega)
        (h.below hfile ha) hv

theorem body_eq_plain {x : File} {place : Place} (hrank : (Item.file x).rank ≤ remaining)
    (h : Unclashed (body f remaining stack x place d)) {v : Visit} {t : TypeRef}
    (hv : v ∈ body f remaining stack x place d) (hitem : v.node.item.type? = some t) :
    v.text = some t.plain := by
  obtain ⟨asks, hbody, -, hasks⟩ := body_eq f remaining stack x place d
  rw [hbody] at hv h
  obtain ⟨a, ha, hv⟩ := List.mem_flatMap.1 hv
  obtain ⟨hall, hrenders⟩ := hasks a ha
  rw [hall] at hv
  have hlt := rank_lt_of_renders hrenders
  refine visit_eq_plain (File.ne_file_of_renders hrenders) (isMarkup_of_renders hrenders)
    (by omega) (fun w hw => h w (List.mem_flatMap.2 ⟨a, ha, ?_⟩)) hv hitem
  rw [hall]
  exact hw

end Java

end Scribe
