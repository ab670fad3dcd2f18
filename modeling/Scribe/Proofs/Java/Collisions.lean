import Scribe.Proofs.Java.Plain
import Mathlib.Data.List.Sort

/-!
Files in which no two types have the same short name. Nothing that is met while such a file is
rendered finds its short name taken, so every reference is written short, whatever its place; and
the imports are those of all names that the file asks for and that need one. Neither depends on the
order in which the file has its parts.
-/
namespace Scribe

namespace Dependencies

variable {d e : Dependencies} {name : String} {names : List String}

theorem forall_wanted_steps (hs : Steps d e) (h : ∀ n ∈ d.loaded, d.wanted n) :
    ∀ n ∈ e.loaded, e.wanted n := by
  induction hs with
  | refl => exact h
  | @tail b c _ hstep ih =>
    intro n hn
    rw [wanted_steps (.single hstep)]
    cases hstep with
    | reserve name => exact ih n (by simpa using hn)
    | load name ignored foreign =>
      rcases mem_loaded_load.1 hn with rfl | hn
      · rw [wanted, ignored, foreign]
        rfl
      · exact ih n hn

theorem claimant_of_find? {short owner : String}
    (h : (names.find? fun n => short = Name.short n) = some owner) :
    owner ∈ names ∧ Name.short owner = short := by
  have htest := List.find?_some h
  exact ⟨List.mem_of_find?_eq_some h, (of_decide_eq_true htest).symm⟩

theorem mem_loaded_refer_foldl_of_free (h : d.Claimed) (hmem : name ∈ names)
    (hwanted : d.wanted name)
    (hown : ∀ owner, d.owner? (Name.short name) = some owner → owner = name)
    (hfree : ∀ other ∈ names, Name.short other = Name.short name → other = name) :
    name ∈ (names.foldl refer d).loaded := by
  obtain ⟨before, after, rfl⟩ := List.append_of_mem hmem
  rw [List.foldl_append, List.foldl_cons]
  have hsteps := steps_refer_foldl d before
  apply mem_loaded_steps (steps_refer_foldl _ after)
  apply mem_loaded_refer_self
  · rw [conflicts_eq_false_iff]
    intro owner howner
    rw [owner?_refer_foldl h, Option.or_eq_some_iff] at howner
    rcases howner with howner | ⟨-, howner⟩
    · exact hown owner howner
    · obtain ⟨hbefore, hshort⟩ := claimant_of_find? howner
      exact hfree owner (List.mem_append_left _ hbefore) hshort
  · rwa [wanted_steps hsteps]

end Dependencies

/-- No two of some names share their short form. -/
def CollisionFree (names : List String) : Prop :=
  ∀ a ∈ names, ∀ b ∈ names, Name.short a = Name.short b → a = b

theorem CollisionFree.of_perm {names names' : List String} (h : CollisionFree names)
    (hperm : names.Perm names') : CollisionFree names' :=
  fun a ha b hb => h a (hperm.mem_iff.2 ha) b (hperm.mem_iff.2 hb)

/-- The names of the types that a file declares, imports and refers to. -/
def File.mentioned (x : File) (trace : List Visit) : List String :=
  x.declared ++ x.imported ++ trace.filterMap (·.reference?)

namespace Java

variable {ignored : List IgnorePattern} {f : Format} {remaining : Nat} {stack : Stack}
  {x y : File} {place q : Place} {name : String}

theorem unclashed_body
    (h : CollisionFree (x.mentioned (body f remaining stack x place { ignored }))) :
    Unclashed (body f remaining stack x place { ignored }) := by
  intro v hv name href
  by_contra hconflicts
  obtain ⟨pre, post, hsplit⟩ := List.append_of_mem hv
  obtain ⟨other, hne, hshort, horigin⟩ :=
    exists_of_conflicts hsplit (eq_true_of_ne_false hconflicts)
  have hname : name ∈ x.mentioned (body f remaining stack x place { ignored }) :=
    List.mem_append_right _ (List.mem_filterMap.2 ⟨v, hv, href⟩)
  refine hne (h other ?_ name hname hshort)
  unfold File.mentioned
  rw [List.mem_append, List.mem_append, or_assoc]
  refine horigin.imp_right (.imp_right fun ⟨w, hw, hother⟩ => ?_)
  rw [hsplit]
  exact List.mem_filterMap.2 ⟨w, List.mem_append_left _ hw, hother⟩

theorem mem_loaded_settled_iff
    (h : CollisionFree (x.mentioned (body f remaining stack x place { ignored }))) :
    name ∈ (settled f remaining stack x place { ignored }).loaded ↔
      (name ∈ x.imported
        ∨ name ∈ (body f remaining stack x place { ignored }).filterMap (·.reference?))
      ∧ x.MayImport ignored name := by
  have hclean := Dependencies.consistent_clean ignored
  have hsettled := steps_settled f remaining stack x place { ignored }
  have hchain := chain_body f remaining stack x place { ignored }
  have hreserved := Dependencies.steps_reserve_foldl
    (Dependencies.enter { ignored } x.package?) x.declared
  have hopened := x.steps_opened { ignored }
  rw [File.mayImport_iff]
  constructor
  · intro hloaded
    refine ⟨?_, ?_⟩
    · have horigin := hloaded
      rw [hchain.eq_foldl] at horigin
      rcases Dependencies.mem_of_mem_loaded_refer_foldl horigin with horigin | horigin
      · exact .inr horigin
      · exact .inl ((File.mem_loaded_opened horigin).resolve_right nofun)
    · rw [← Dependencies.wanted_steps hsettled]
      refine Dependencies.forall_wanted_steps hsettled (fun n hn => ?_) name hloaded
      rw [Dependencies.enter_eq] at hn
      exact nomatch hn
  -- No other name shares the short one, so whoever asked for it before asked for this name.
  · rintro ⟨hused, hwanted⟩
    have hname : name ∈ x.mentioned (body f remaining stack x place { ignored }) := by
      unfold File.mentioned
      rw [List.append_assoc]
      exact List.mem_append_right _ (List.mem_append.2 hused)
    have hdeclared : ∀ other ∈ x.declared, Name.short other = Name.short name → other = name := by
      intro other hother
      exact h other (List.mem_append_left _ (List.mem_append_left _ hother)) name hname
    have himported : ∀ other ∈ x.imported, Name.short other = Name.short name → other = name := by
      intro other hother
      exact h other (List.mem_append_left _ (List.mem_append_right _ hother)) name hname
    rcases hused with hmem | hmem
    -- What was imported before the body is rendered stays loaded while it is.
    · apply Dependencies.mem_loaded_steps hchain.steps
      apply Dependencies.mem_loaded_refer_foldl_of_free ((hclean.enter _).steps hreserved).claimed
      · exact List.mem_filter.2 ⟨hmem, by rwa [Dependencies.wanted_steps hreserved]⟩
      · rwa [Dependencies.wanted_steps hreserved]
      · intro owner howner
        rw [Dependencies.owner?_reserve_foldl, Dependencies.enter_eq] at howner
        obtain ⟨hother, hshort⟩ := Dependencies.claimant_of_find? howner
        exact hdeclared owner hother hshort
      · exact fun other hother => himported other (List.mem_filter.1 hother).1
    · rw [hchain.eq_foldl]
      have hclaimed := ((hclean.enter x.package?).steps hopened).claimed
      apply Dependencies.mem_loaded_refer_foldl_of_free hclaimed hmem
      · rwa [Dependencies.wanted_steps hopened]
      · intro owner howner
        rw [owner?_opened hclean] at howner
        obtain ⟨hother, hshort⟩ := Dependencies.claimant_of_find? howner
        rcases List.mem_append.1 hother with hother | hother
        · exact hdeclared owner hother hshort
        · exact himported owner (List.mem_filter.1 hother).1 hshort
      · exact fun other hother => h other (List.mem_append_right _ hother) name hname

/-! The depth limit. -/

section

variable {maxDepth height far : Nat}
  (hheight : (session ignored f maxDepth).HasHeight ⟨.file x, place⟩ height)
  (hdepth : height ≤ remaining + 1) (hfar : remaining ≤ far)

include hheight hdepth hfar

/-- The trace of a file is the same under every limit that is no lower than its height. -/
theorem body_eq_of_height :
    body f remaining {} x place { ignored } = body f far {} x place { ignored } := by
  have halike := complete.alike_of_height (b := binding) (n := ⟨.file x, place⟩)
    (d := { ignored }) (f := f) rfl hheight hdepth (Nat.succ_le_succ hfar)
  have hvisits : (dispatcher f).visits (remaining + 1) {} false ⟨.file x, place⟩ { ignored } =
      (dispatcher f).visits (far + 1) {} false ⟨.file x, place⟩ { ignored } := halike.visits
  rw [visits_file, visits_file] at hvisits
  exact (List.cons.inj hvisits).2

theorem settled_eq_of_height :
    settled f remaining {} x place { ignored } = settled f far {} x place { ignored } := by
  rw [(chain_body f remaining {} x place { ignored }).eq_foldl,
    (chain_body f far {} x place { ignored }).eq_foldl, body_eq_of_height hheight hdepth hfar]

end

theorem loaded_settled_eq_nil {d : Dependencies} (h : body f (remaining + 1) stack x place d = []) :
    (settled f (remaining + 1) stack x place d).loaded = [] := by
  obtain ⟨asks, hbody, hitems, hasks⟩ := body_eq f (remaining + 1) stack x place d
  rw [hbody, visitsOf, List.flatMap_eq_nil_iff] at h
  cases hloaded : (settled f (remaining + 1) stack x place d).loaded with
  | nil => rfl
  | cons name names =>
    rw [hloaded] at hitems
    obtain ⟨a, ha, hitem⟩ : ∃ a ∈ asks, a.node.item = .importDecl { type := .ofName name } := by
      have hmem : Item.importDecl { type := .ofName name } ∈ asks.map (·.node.item) := by
        rw [hitems]
        exact List.mem_cons_self
      exact List.mem_map.1 hmem
    have hnil := h a (List.mem_append_right _ ha)
    have hkind : transform? a.node.kind = some importTransform := by
      rw [Node.kind, hitem]
      rfl
    rw [visits_of_transform _ _ _ _ _ hkind] at hnil
    exact absurd hnil (List.cons_ne_nil _ _)

theorem importedNames_of_height {maxDepth height : Nat}
    (hheight : (session ignored f maxDepth).HasHeight ⟨.file x, place⟩ height)
    (hdepth : height ≤ remaining + 1)
    (hfree : CollisionFree (x.mentioned (body f remaining {} x place { ignored }))) :
    importedNames f remaining {} x place { ignored } =
      (settled f remaining {} x place { ignored }).loaded := by
  unfold importedNames
  dsimp only
  split
  · next hzero =>
    subst hzero
    have hbody := body_eq_of_height hheight hdepth (Nat.zero_le 1)
    rw [body_zero] at hbody
    rw [settled_eq_of_height hheight hdepth (Nat.zero_le 1), loaded_settled_eq_nil hbody.symm]
  · refine List.filter_eq_self.2 fun name hname => ?_
    rw [Dependencies.wanted_steps (steps_settled f remaining {} x place { ignored }),
      ← File.mayImport_iff]
    exact ((mem_loaded_settled_iff hfree).1 hname).2

/-! What is written. -/

def writings (trace : List Visit) : List (TypeRef × Option String) :=
  trace.filterMap fun v => v.node.item.type?.map (·, v.text)

/-- Every reference of a file is written short, and the imports are those of the names that the
file imports or refers to and that need one, in the order of their bytes. -/
structure Unambiguous (ignored : List IgnorePattern) (x : File) (trace : List Visit)
    (imports : List String) : Prop where
  plain : ∀ v ∈ trace, ∀ t, v.node.item = .type t → v.text = some t.plain
  imports : ∃ names : List String, imports = names.map importLine
    ∧ names.Pairwise (Text.bytes · < Text.bytes ·)
    ∧ ∀ name, name ∈ names ↔
      (name ∈ x.imported ∨ ∃ v ∈ trace, v.reference? = some name) ∧ x.MayImport ignored name

theorem type?_eq_some_iff {i : Item} {t : TypeRef} : i.type? = some t ↔ i = .type t := by
  cases i <;> simp [Item.type?]

section

variable {maxDepth height : Nat}
  (hheight : (session ignored f maxDepth).HasHeight ⟨.file x, place⟩ height)
  (hdepth : height ≤ remaining + 1)
  (hfree : CollisionFree (x.mentioned (body f remaining {} x place { ignored })))

include hheight hdepth hfree

theorem plain_body {v : Visit} {t : TypeRef} (hv : v ∈ body f remaining {} x place { ignored })
    (hitem : v.node.item.type? = some t) : v.text = some t.plain := by
  have hbody := body_eq_of_height hheight hdepth (Nat.le_max_left remaining (Item.file x).rank)
  rw [hbody] at hv hfree
  exact body_eq_plain (Nat.le_max_right _ _) (unclashed_body hfree) hv hitem

theorem unambiguous_body : Unambiguous ignored x (body f remaining {} x place { ignored })
    (fileText f remaining {} x place { ignored }).imports := by
  refine ⟨?plain, _, imports_eq_map _, ?ascending, fun name => ?mem⟩
  case plain =>
    intro v hv t hitem
    exact plain_body hheight hdepth hfree hv (type?_eq_some_iff.2 hitem)
  case ascending => exact (clear_importedNames ignored f remaining {} x place).ascending
  case mem =>
    rw [importedNames_of_height hheight hdepth hfree, mem_loaded_settled_iff hfree,
      List.mem_filterMap]

end

/-! Other orders. -/

section

variable (h : Rearranged (.file x) (.file y)) (hx : (Item.file x).rank ≤ remaining)
  (hy : (Item.file y).rank ≤ remaining)
  (hfree : CollisionFree (x.mentioned (body f remaining stack x place { ignored })))

include h hx hy hfree

theorem collisionFree_of_rearranged :
    CollisionFree (y.mentioned (body f remaining stack y q { ignored })) :=
  hfree.of_perm (((perm_declared h).append (perm_imported h)).append (perm_references h hx hy))

theorem loaded_eq_of_rearranged :
    (settled f remaining stack x place { ignored }).loaded =
      (settled f remaining stack y q { ignored }).loaded := by
  have hyfree := collisionFree_of_rearranged (q := q) h hx hy hfree
  have hsound (x : File) (place : Place) :
      (settled f remaining stack x place { ignored }).Sound ignored :=
    sound_settled (.clean ignored)
  refine (hsound x place).consistent.ascending.eq_of_mem_iff (hsound y q).consistent.ascending
    fun name => ?_
  have hmay : x.MayImport ignored name ↔ y.MayImport ignored name := by
    rw [File.mayImport_iff, File.mayImport_iff, package?_eq_of_rearranged h]
  rw [mem_loaded_settled_iff hfree, mem_loaded_settled_iff hyfree, (perm_imported h).mem_iff,
    (perm_references h hx hy).mem_iff, hmay]

theorem perm_marks_of_rearranged :
    ((body f remaining stack x place { ignored }).map Visit.mark).Perm
      ((body f remaining stack y q { ignored }).map Visit.mark) :=
  perm_body h hx hy (loaded_eq_of_rearranged h hx hy hfree)

end

theorem peak_eq_of_perm {vs ws : List Visit}
    (h : (vs.map Visit.mark).Perm (ws.map Visit.mark)) : peak vs = peak ws := by
  have hdepths := h.map fun mark : Nat × Option TypeRef => mark.1 + 1
  rw [List.map_map, List.map_map] at hdepths
  exact hdepths.foldr_op_eq

theorem writings_of_plain {trace : List Visit}
    (h : ∀ v ∈ trace, ∀ t, v.node.item.type? = some t → v.text = some t.plain) :
    writings trace = (trace.map Visit.mark).filterMap fun mark =>
      mark.2.map fun t => (t, some t.plain) := by
  unfold writings
  rw [List.filterMap_map]
  refine List.filterMap_congr fun v hv => ?_
  simp only [Function.comp_apply, Visit.mark]
  cases htype : v.node.item.type? with
  | none => rfl
  | some t => rw [Option.map_some, Option.map_some, h v hv t htype]

section

variable {maxDepth height : Nat} (h : Rearranged (.file x) (.file y))
  (hheight : (session ignored f maxDepth).HasHeight ⟨.file x, place⟩ height)
  (hdepth : height ≤ remaining + 1)
  (hfree : CollisionFree (x.mentioned (body f remaining {} x place { ignored })))

include h hheight hdepth hfree

/-- Whatever the order of its parts, a file needs the same limit. -/
theorem hasHeight_of_rearranged :
    (session ignored f maxDepth).HasHeight ⟨.file y, q⟩ height := by
  obtain ⟨limit, hlimit⟩ := id hheight
  let enough := max remaining (max (Item.file x).rank (Item.file y).rank)
  refine ⟨max limit (enough + 1), fun deep hdeep => ?_⟩
  obtain ⟨far, rfl⟩ : ∃ far, deep = far + 1 := ⟨deep - 1, by omega⟩
  rw [← hlimit (far + 1) (by omega)]
  rw [body_eq_of_height hheight hdepth (by omega : remaining ≤ far)] at hfree
  have hbody := perm_marks_of_rearranged (q := q) h (by omega) (by omega) hfree
  have hvisits : ∀ n, ((session ignored f maxDepth).withMaxDepth (far + 1)).visits n =
      (session ignored f (far + 1)).visits n := fun n => rfl
  rw [hvisits, hvisits, visits_session, visits_session]
  exact peak_eq_of_perm (hbody.symm.cons (0, none))

theorem body_of_rearranged :
    (fileText f remaining {} y q { ignored }).imports =
        (fileText f remaining {} x place { ignored }).imports
      ∧ (writings (body f remaining {} y q { ignored })).Perm
        (writings (body f remaining {} x place { ignored })) := by
  have hyheight := hasHeight_of_rearranged (q := q) h hheight hdepth hfree
  let far := max remaining (max (Item.file x).rank (Item.file y).rank)
  have hbody := body_eq_of_height hheight hdepth (by omega : remaining ≤ far)
  have hybody := body_eq_of_height hyheight hdepth (by omega : remaining ≤ far)
  have hfarfree := hbody ▸ hfree
  have hyfree := collisionFree_of_rearranged (q := q) h (by omega) (by omega) hfarfree
  rw [← hybody] at hyfree
  constructor
  · rw [imports_eq_map, imports_eq_map, importedNames_of_height hheight hdepth hfree,
      importedNames_of_height hyheight hdepth hyfree,
      settled_eq_of_height hheight hdepth (by omega : remaining ≤ far),
      settled_eq_of_height hyheight hdepth (by omega : remaining ≤ far),
      loaded_eq_of_rearranged h (by omega) (by omega) hfarfree]
  · rw [writings_of_plain fun v hv t => plain_body hyheight hdepth hyfree hv,
      writings_of_plain fun v hv t => plain_body hheight hdepth hfree hv, hbody, hybody]
    exact (perm_marks_of_rearranged h (by omega) (by omega) hfarfree).symm.filterMap _

end

theorem Unambiguous.cons {trace : List Visit} {imports : List String} {own : Visit}
    (h : Unambiguous ignored x trace imports) (hown : own.reference? = none) :
    Unambiguous ignored x (own :: trace) imports := by
  constructor
  case plain =>
    intro v hv t hitem
    rcases List.mem_cons.1 hv with rfl | hv
    · rw [Visit.reference?_of_item hitem] at hown
      exact nomatch hown
    · exact h.plain v hv t hitem
  case imports =>
    obtain ⟨names, himports, hascending, hmem⟩ := h.imports
    refine ⟨names, himports, hascending, fun name => ?_⟩
    rw [hmem, List.exists_mem_cons_iff, hown]
    simp

theorem height_pos {maxDepth height : Nat}
    (hheight : (session ignored f maxDepth).HasHeight ⟨.file x, place⟩ height) : 0 < height := by
  obtain ⟨limit, hlimit⟩ := hheight
  rw [← hlimit (limit + 1) (Nat.le_succ limit)]
  change 0 < peak ((session ignored f (limit + 1)).visits ⟨.file x, place⟩)
  rw [visits_session]
  exact Nat.zero_lt_of_lt (lt_peak List.mem_cons_self)

/-- A file in which no two names share their short form has all references written short and imports
exactly the names that need it, in the order of their bytes, when it is rendered from nothing used
within a limit no lower than its height. So it is for the same file with its parts in any other
order: the imports are the same, and so is the text of each reference. -/
theorem imports_of_collisionFree (ignored : List IgnorePattern) (f : Format) (maxDepth height : Nat)
    (x : File) (place : Place)
    (hheight : (session ignored f maxDepth).HasHeight ⟨.file x, place⟩ height)
    (hdepth : height ≤ maxDepth)
    (hfree : CollisionFree
      (x.mentioned ((session ignored f maxDepth).visits ⟨.file x, place⟩))) :
    ∃ text, fileText? (session ignored f maxDepth) x place = some text
      ∧ ((session ignored f maxDepth).render ⟨.file x, place⟩).1 = some (text.text f)
      ∧ Unambiguous ignored x ((session ignored f maxDepth).visits ⟨.file x, place⟩) text.imports
      ∧ ∀ (y : File) (place' : Place), Rearranged (.file x) (.file y) →
        (session ignored f maxDepth).HasHeight ⟨.file y, place'⟩ height
        ∧ ∃ text', fileText? (session ignored f maxDepth) y place' = some text'
          ∧ ((session ignored f maxDepth).render ⟨.file y, place'⟩).1 = some (text'.text f)
          ∧ text'.imports = text.imports
          ∧ (writings ((session ignored f maxDepth).visits ⟨.file y, place'⟩)).Perm
            (writings ((session ignored f maxDepth).visits ⟨.file x, place⟩)) := by
  cases maxDepth with
  | zero =>
    have hpos := height_pos hheight
    omega
  | succ remaining =>
    have hrender (x : File) (place : Place) := render_file ignored f (remaining + 1) x place
    rw [visits_session] at hfree ⊢
    refine ⟨_, rfl, hrender x place, ?_, fun y place' h => ?_⟩
    · exact (unambiguous_body hheight hdepth hfree).cons rfl
    · obtain ⟨himports, hwritings⟩ := body_of_rearranged (q := place') h hheight hdepth hfree
      rw [visits_session]
      refine ⟨hasHeight_of_rearranged h hheight hdepth hfree, _, rfl, hrender y place', ?_⟩
      exact ⟨himports, hwritings⟩

def atlas : File where
  name := "com/acme/Atlas.java"
  imports := [{ type := .ofName "org.maps.Route" }, { type := .ofName "java.net.URI" }]
  classes := [.classDecl
    { name := "Atlas"
      fields :=
        [{ name := "sheets"
           type := { name := "java.util.List", arguments := [.type (.ofName "com.acme.Sheet")] } },
          { name := "index", type := .ofName "java.util.Map" }] }]

def atlasReversed : File where
  name := "com/acme/Atlas.java"
  imports := [{ type := .ofName "java.net.URI" }, { type := .ofName "org.maps.Route" }]
  classes := [.classDecl
    { name := "Atlas"
      fields :=
        [{ name := "index", type := .ofName "java.util.Map" },
          { name := "sheets"
            type := { name := "java.util.List"
                      arguments := [.type (.ofName "com.acme.Sheet")] } }] }]

theorem rearranged_atlas : Rearranged (.file atlas) (.file atlasReversed) := by
  refine .intro rfl (fun
    | .imports => (Item.file atlas).slot .imports
    | s => (Item.file atlasReversed).slot s) ?parts ?perm ?fixed
  case parts =>
    intro s
    cases s
    case classes =>
      refine .cons (.of_perm rfl (fun s => ?_) fun s hs => ?_) .nil
      · cases s
        case fields => exact .swap _ _ _
        all_goals exact .refl _
      · cases s <;> first | rfl | exact nomatch hs
    all_goals exact List.forall₂_same.2 fun i _ => .refl i
  case perm =>
    intro s
    cases s
    case imports => exact .swap _ _ _
    all_goals exact .refl _
  case fixed =>
    intro s hs
    cases s <;> first | rfl | exact nomatch hs

theorem imports_of_collisionFree_atlas :
    let g := session ignorePatterns {} 8
    g.HasHeight ⟨.file atlas, []⟩ 5 ∧ 5 ≤ 8
      ∧ CollisionFree (atlas.mentioned (g.visits ⟨.file atlas, []⟩))
      ∧ Rearranged (.file atlas) (.file atlasReversed)
      ∧ ∃ text, fileText? g atlasReversed [] = some text
        ∧ text.imports = ["import java.net.URI;", "import java.util.List;", "import java.util.Map;",
          "import org.maps.Route;"] := by
  intro g
  have hpeak : peak (g.visits ⟨.file atlas, []⟩) = 5 := by decide +kernel
  have hheight : g.HasHeight ⟨.file atlas, []⟩ 5 := by
    rw [← hpeak]
    exact complete.hasHeight_of_peak_lt rfl (lt_of_eq_of_lt hpeak (by decide)) _
  have hnames : atlas.mentioned (g.visits ⟨.file atlas, []⟩) =
      ["com.acme.Atlas", "org.maps.Route", "java.net.URI", "java.util.List", "com.acme.Sheet",
        "java.util.Map"] := by decide +kernel
  have hfree : CollisionFree (atlas.mentioned (g.visits ⟨.file atlas, []⟩)) := by
    rw [hnames]
    unfold CollisionFree
    decide +kernel
  obtain ⟨text, htext, -, -, hrearranged⟩ := imports_of_collisionFree ignorePatterns {} 8 5 atlas []
    hheight (by decide) hfree
  obtain ⟨-, text', htext', -, himports, -⟩ := hrearranged atlasReversed [] rearranged_atlas
  refine ⟨hheight, by decide, hfree, rearranged_atlas, text', htext', ?_⟩
  have hatlas : (fileText? g atlas []).map (·.imports) = some ["import java.net.URI;",
      "import java.util.List;", "import java.util.Map;", "import org.maps.Route;"] := by
    decide +kernel
  rw [htext] at hatlas
  rw [himports]
  exact Option.some.inj hatlas

end Java

end Scribe
