import Scribe.Proofs.Java.Imports
import Scribe.Proofs.Name

/-!
How the references of a file are written, told by the names that ask for a short form: those that
the file declares, those that it imports, and those that it refers to, in this order. The first of
them with some short name owns it.
-/
namespace Scribe

namespace Visit

/-- The name of a type is written in some form. -/
def Writes (v : Visit) (t : TypeRef) (form : String) : Prop :=
  v.text = some (form ++ Java.typeTail t (v.asks.flatMap (·.texts)))

theorem Writes.unique {v : Visit} {t : TypeRef} {a b : String} (ha : v.Writes t a)
    (hb : v.Writes t b) : a = b := by
  unfold Writes at ha hb
  rw [ha, Option.some_inj] at hb
  exact (String.append_left_inj _).1 hb

theorem reference?_of_item {v : Visit} {t : TypeRef} (h : v.node.item = .type t) :
    v.reference? = some t.name := by
  unfold reference?
  rw [h]

end Visit

def File.claimants (x : File) (d : Dependencies) : List String :=
  x.declared ++ x.imported.filter (d.enter x.package?).wanted

namespace Java

variable {ignored : List IgnorePattern} {f : Format} {remaining : Nat} {stack : Stack} {n : Node}
  {d : Dependencies} {x : File} {place : Place}

theorem owner?_opened (h : d.Consistent) (x : File) (short : String) :
    (x.opened d).owner? short =
      (d.owner? short).or ((x.claimants d).find? fun name => short = Name.short name) := by
  have hsteps := Dependencies.steps_reserve_foldl (d.enter x.package?) x.declared
  have howner : (d.enter x.package?).owner? short = d.owner? short := by
    rw [Dependencies.enter_eq]
    rfl
  unfold File.opened File.claimants
  rw [Dependencies.owner?_refer_foldl ((h.enter _).steps hsteps).claimed,
    Dependencies.owner?_reserve_foldl, howner, Option.or_assoc,
    Dependencies.wanted_steps hsteps, List.find?_append]

/-! References below a file. -/

theorem writes_spelling {v : Visit} {t : TypeRef} (hv : v ∈ body f remaining stack x place d)
    (hitem : v.node.item = .type t) : v.Writes t (v.before.spelling t.name) := by
  suffices hall : ∀ t, v.node.item = .type t → v.Writes t (v.before.spelling t.name) from
    hall t hitem
  apply forall_body (P := fun v => ∀ t, v.node.item = .type t →
    v.Writes t (v.before.spelling t.name)) _ hv
  intro remaining stack n d c _ t hitem
  obtain ⟨item, place⟩ := n
  obtain rfl : item = .type t := hitem
  exact text_ownVisit remaining stack place d t c

theorem body_zero : body f 0 stack x place d = [] :=
  List.flatMap_eq_nil_iff.2 fun _ _ => rfl

variable {pre post : List Visit} {v : Visit} {name : String}

/-- Who owns a short name when a reference is met. -/
theorem owner?_before (h : d.Consistent)
    (hsplit : body f remaining stack x place d = pre ++ v :: post) (short : String) :
    v.before.owner? short = (d.owner? short).or
      ((x.claimants d ++ pre.filterMap (·.reference?)).find? fun name =>
        short = Name.short name) := by
  have hchain := chain_body f remaining stack x place d
  rw [hsplit] at hchain
  have hopened : (x.opened d).Consistent := (h.enter x.package?).steps (x.steps_opened d)
  rw [hchain.split_cons.1.eq_foldl, Dependencies.owner?_refer_foldl hopened.claimed,
    owner?_opened h, Option.or_assoc, List.find?_append]

/-- A name is only written in full if another one has asked for its short form before. -/
theorem exists_of_conflicts (hsplit : body f remaining stack x place { ignored } = pre ++ v :: post)
    (h : v.before.conflicts name) :
    ∃ other ≠ name, Name.short other = Name.short name
      ∧ (other ∈ x.declared ∨ other ∈ x.imported ∨ ∃ w ∈ pre, w.reference? = some other) := by
  obtain ⟨other, howner, hne⟩ := Dependencies.conflicts_eq_true_iff.1 h
  rw [owner?_before (Dependencies.consistent_clean ignored) hsplit] at howner
  have hshort := List.find?_some howner
  refine ⟨other, hne, (of_decide_eq_true hshort).symm, ?_⟩
  have hmem := List.mem_of_find?_eq_some howner
  unfold File.claimants at hmem
  rw [List.append_assoc, List.mem_append, List.mem_append] at hmem
  rcases hmem with hdeclared | himported | hreferred
  · exact .inl hdeclared
  · exact .inr (.inl (List.mem_filter.1 himported).1)
  · obtain ⟨w, hw, href⟩ := List.mem_filterMap.1 hreferred
    exact .inr (.inr ⟨w, hw, href⟩)

theorem mem_importedNames_of_short (hv : v ∈ body f remaining stack x place d)
    (href : v.reference? = some name) (free : v.before.conflicts name = false)
    (hwanted : v.before.wanted name) : name ∈ importedNames f remaining stack x place d := by
  have hsteps := ((chain_body f remaining stack x place d).steps_before hv).2
  have hloaded : name ∈ (v.effect v.before).loaded := by
    rw [Visit.effect, href]
    exact Dependencies.mem_loaded_refer_self free hwanted
  have hkeep := Dependencies.wanted_steps ((v.steps_effect v.before).trans hsteps)
  unfold importedNames
  rw [if_neg, List.mem_filter, hkeep]
  · exact ⟨Dependencies.mem_loaded_steps hsteps hloaded, hwanted⟩
  · rintro rfl
    rw [body_zero] at hv
    exact absurd hv List.not_mem_nil

theorem origin_of_mem_importedNames
    (h : name ∈ importedNames f remaining stack x place { ignored }) :
    name ∈ x.imported
      ∨ ∃ v ∈ body f remaining stack x place { ignored }, v.reference? = some name := by
  have hloaded := (mem_importedNames h).1
  rw [(chain_body f remaining stack x place { ignored }).eq_foldl] at hloaded
  rcases Dependencies.mem_of_mem_loaded_refer_foldl hloaded with h | h
  · exact .inr (List.mem_filterMap.1 h)
  · rcases File.mem_loaded_opened h with h | h
    · exact .inl h
    · exact nomatch h

theorem visits_session (ignored : List IgnorePattern) (f : Format) (remaining : Nat) (x : File)
    (place : Place) :
    (session ignored f (remaining + 1)).visits ⟨.file x, place⟩ =
      ownVisit f remaining {} ⟨.file x, place⟩ { ignored } fileTransform
      :: body f remaining {} x place { ignored } :=
  visits_file f remaining {} x place { ignored } false

theorem split_of_reference {own : Visit} {trace : List Visit} (hown : own.reference? = none)
    (hsplit : own :: trace = pre ++ v :: post) (href : v.reference? = some name) :
    ∃ rest, pre = own :: rest ∧ trace = rest ++ v :: post := by
  cases pre with
  | nil =>
    rw [List.nil_append, List.cons.injEq] at hsplit
    rw [hsplit.1, href] at hown
    exact nomatch hown
  | cons w rest =>
    rw [List.cons_append, List.cons.injEq] at hsplit
    exact ⟨rest, by rw [hsplit.1], hsplit.2⟩

theorem covered_or_samePackage_of_unwanted (hv : v ∈ body f remaining stack x place { ignored })
    (h : v.before.wanted name = false) :
    (∃ p ∈ ignored, p.covers name)
      ∨ ∃ package, x.package? = some package ∧ Name.package? name = some package := by
  have hsteps : Dependencies.Steps (Dependencies.enter { ignored } x.package?) v.before :=
    (x.steps_opened _).trans ((chain_body f remaining stack x place { ignored }).steps_before hv).1
  rw [Dependencies.wanted_steps hsteps, Dependencies.enter_eq] at h
  simp only [Dependencies.wanted, Bool.not_eq_false', Bool.or_eq_true] at h
  rcases h with h | h
  · exact .inl (List.any_eq_true.1 h)
  · refine .inr ?_
    simp only [Dependencies.isSamePackage, Option.none_or] at h
    split at h
    · next current package hcurrent hname =>
      exact ⟨current, hcurrent, hname.trans (congrArg some (eq_of_beq h).symm)⟩
    · exact absurd h (by decide)

/-- What is written for the references of a file agrees with its imports. -/
structure Justified (ignored : List IgnorePattern) (x : File) (trace : List Visit)
    (imports : List String) : Prop where
  form : ∀ v ∈ trace, ∀ t, v.node.item = .type t →
    v.Writes t (Name.short t.name) ∨ v.Writes t t.name
  /-- A name with a package is written short if it is ignored, lies in the package of the file or
  is imported. -/
  short : ∀ v ∈ trace, ∀ t, v.node.item = .type t → '.' ∈ t.name.toList →
    v.Writes t (Name.short t.name) →
      (∃ p ∈ ignored, p.covers t.name)
        ∨ (∃ package, x.package? = some package ∧ Name.package? t.name = some package)
        ∨ importLine t.name ∈ imports
  /-- It is written in full if another name has asked for its short form before. -/
  full : ∀ pre v post t, trace = pre ++ v :: post → v.node.item = .type t →
    '.' ∈ t.name.toList → v.Writes t t.name →
      ∃ other ≠ t.name, Name.short other = Name.short t.name
        ∧ (other ∈ x.declared ∨ other ∈ x.imported ∨ ∃ w ∈ pre, w.reference? = some other)
  origin : ∀ line ∈ imports, ∃ name, line = importLine name
    ∧ (name ∈ x.imported ∨ ∃ v ∈ trace, v.reference? = some name)

theorem justified_body (ignored : List IgnorePattern) (f : Format) (remaining : Nat) (stack : Stack)
    (x : File) (place : Place) : Justified ignored x (body f remaining stack x place { ignored })
      (fileText f remaining stack x place { ignored }).imports := by
  refine ⟨?form, ?short, ?full, ?origin⟩
  case form =>
    intro v hv t hitem
    have hwrites := writes_spelling hv hitem
    unfold Dependencies.spelling at hwrites
    split at hwrites
    · exact .inr hwrites
    · exact .inl hwrites
  case short =>
    -- A dotted name is not its own short form, so what is written tells whether it conflicted.
    intro v hv t hitem hdot hshort
    have hspelling := hshort.unique (writes_spelling hv hitem)
    cases hconflicts : v.before.conflicts t.name with
    | true =>
      rw [Dependencies.spelling, if_pos hconflicts] at hspelling
      exact absurd hspelling (Name.short_ne_self hdot)
    | false =>
      cases hwanted : v.before.wanted t.name with
      | false => exact (covered_or_samePackage_of_unwanted hv hwanted).imp_right .inl
      | true =>
        have hname := mem_importedNames_of_short hv (Visit.reference?_of_item hitem) hconflicts
          hwanted
        rw [imports_eq_map]
        exact .inr (.inr (List.mem_map_of_mem hname))
  case full =>
    intro pre v post t hsplit hitem hdot hfull
    have hv : v ∈ body f remaining stack x place { ignored } := by
      rw [hsplit]
      exact List.mem_append_right _ List.mem_cons_self
    have hspelling := hfull.unique (writes_spelling hv hitem)
    cases hconflicts : v.before.conflicts t.name with
    | true => exact exists_of_conflicts hsplit hconflicts
    | false =>
      rw [Dependencies.spelling, if_neg (by simp [hconflicts])] at hspelling
      exact absurd hspelling.symm (Name.short_ne_self hdot)
  case origin =>
    intro line hline
    rw [imports_eq_map] at hline
    obtain ⟨name, hname, rfl⟩ := List.mem_map.1 hline
    exact ⟨name, rfl, origin_of_mem_importedNames hname⟩

theorem Justified.cons {trace : List Visit} {imports : List String} {own : Visit}
    (h : Justified ignored x trace imports) (hown : own.reference? = none) :
    Justified ignored x (own :: trace) imports := by
  have inner {v : Visit} {t : TypeRef} (hv : v ∈ own :: trace) (hitem : v.node.item = .type t) :
      v ∈ trace := by
    rcases List.mem_cons.1 hv with rfl | hv
    · rw [Visit.reference?_of_item hitem] at hown
      exact nomatch hown
    · exact hv
  refine ⟨?form, ?short, ?full, ?origin⟩
  case form => exact fun v hv t hitem => h.form v (inner hv hitem) t hitem
  case short => exact fun v hv t hitem => h.short v (inner hv hitem) t hitem
  case full =>
    intro pre v post t hsplit hitem hdot hfull
    obtain ⟨rest, rfl, hrest⟩ := split_of_reference hown hsplit (Visit.reference?_of_item hitem)
    obtain ⟨other, hne, hsame, horigin⟩ := h.full rest v post t hrest hitem hdot hfull
    refine ⟨other, hne, hsame, horigin.imp_right (.imp_right ?_)⟩
    exact fun ⟨w, hw, href⟩ => ⟨w, List.mem_cons_of_mem own hw, href⟩
  case origin =>
    intro line hline
    obtain ⟨name, rfl, horigin⟩ := h.origin line hline
    exact ⟨name, rfl, horigin.imp_right fun ⟨v, hv, href⟩ => ⟨v, List.mem_cons_of_mem own hv, href⟩⟩

/-- The references of a file that is rendered from nothing used, and the imports it is given. -/
theorem references_justified (ignored : List IgnorePattern) (f : Format) (maxDepth : Nat)
    (x : File) (place : Place) (text : FileText)
    (h : fileText? (session ignored f maxDepth) x place = some text) :
    ((session ignored f maxDepth).render ⟨.file x, place⟩).1 = some (text.text f)
      ∧ Justified ignored x ((session ignored f maxDepth).visits ⟨.file x, place⟩) text.imports := by
  have hrender := render_file ignored f maxDepth x place
  rw [h] at hrender
  refine ⟨hrender, ?_⟩
  cases maxDepth with
  | zero => exact nomatch h
  | succ remaining =>
    obtain rfl := Option.some.inj h
    rw [visits_session]
    exact (justified_body ignored f remaining {} x place).cons rfl

theorem references_justified_widget :
    Justified ignorePatterns widget ((session ignorePatterns {} 8).visits ⟨.file widget, []⟩)
      ["import java.util.List;"] := by
  obtain ⟨text, htext, himports⟩ := fileText?_widget
  rw [← himports]
  exact (references_justified ignorePatterns {} 8 widget [] text htext).2

end Java

end Scribe
