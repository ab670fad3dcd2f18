import Scribe.Proofs.Java.Bracket
import Scribe.Proofs.Java.Descent
import Scribe.Proofs.Java.File
import Scribe.Proofs.Java.OneLine

/-!
The Java transforms put brackets in pairs around what is rendered for the children, whatever of these
is missing. Where no string of the model has a bracket or a quote in it, all text is balanced.
-/
namespace Scribe.Java

open Markup (Blank)
open Script

/-- An item none of whose own strings has a bracket or a quote in it; quoted text may. -/
def Tidy (i : Item) : Prop := ∀ text ∈ i.strings ++ i.prose, Unmarked text

def TidyNames (d : Dependencies) : Prop := ∀ name ∈ d.loaded, Unmarked name

/-- A tag of a comment is cut into lines, so that more is needed of it. -/
def Paired : Item → String → Prop
  | .javadocTag _ => Unmarked
  | _ => Balanced

theorem Paired.balanced {i : Item} {text : String} (h : Paired i text) : Balanced text := by
  cases i with
  | javadocTag t => exact balanced_of_unmarked h
  | _ => exact h

theorem Balanced.of_append_square {text : String} (h : Balanced (text ++ "[]")) :
    Balanced text := by
  intro opened
  obtain ⟨⟨mode, opened'⟩, hread, hend⟩ := takes_append.1 (h opened)
  cases mode with
  | code => exact hread.trans (congrArg some (Option.some.inj hend))
  | literal | escaped => exact nomatch hend

theorem balanced_varargsType {type : String} (h : Balanced type) :
    Balanced (varargsType type) := by
  unfold varargsType
  split
  · next element helement =>
    rw [Text.eq_append_of_dropEnd? helement] at h
    exact h.of_append_square.concat (by decide)
  · exact h

theorem balanced_modified (s : Stack) (ms : Modifiers) {text : String} (h : Balanced text) :
    Balanced (modifierWords s ms ++ text) :=
  h.prepend (unmarked_of_plain (plain_modifierWords s ms))

theorem unmarked_renderJavadocTag {t : JavadocTag} (h : Tidy (.javadocTag t)) :
    Unmarked (renderJavadocTag t) := by
  have hpart (p : Option String) (hp : ∀ text ∈ p, Unmarked text) :
      Unmarked ((p.map (" " ++ ·)).getD "") := by
    cases p with
    | none => decide
    | some text => exact Text.all_append.2 ⟨by decide, hp text rfl⟩
  have hname : Unmarked t.name := h _ (by simp)
  simp only [renderJavadocTag, Unmarked, Text.all_append]
  refine ⟨⟨⟨by decide, hname⟩, hpart _ fun text htext => ?_⟩, hpart _ fun text htext => ?_⟩
  · exact h _ (by simp [Option.mem_def.1 htext])
  · exact h _ (by simp [Option.mem_def.1 htext])

theorem unmarked_of_mem_commentLines {text line : String} (h : Unmarked text)
    (hline : line ∈ commentLines text) : Unmarked line := by
  obtain ⟨line, hmem, rfl⟩ := List.mem_map.1 hline
  unfold commentLine
  dsimp only
  split
  · decide
  · exact Text.all_append.2 ⟨by decide, (h.of_mem_lines hmem).trimEnd⟩

section

variable {c : Children} {n : Node} {slot : Slot} {f : Format}

/-! Fragments. -/

theorem yields_balanced (hc : Answers Paired c TidyNames n) {as : List α} {item : α → Item}
    (h : ∀ a ∈ as, n.item.Holds (item a)) :
    Yields c TidyNames (fun ts => ∀ t ∈ ts, Balanced t) (texts (n.parts slot (as.map item))) :=
  hc.parts h fun _ _ => Paired.balanced

theorem gives_child (hc : Answers Paired c TidyNames n) {i : Item} (h : n.item.Holds i) :
    Gives c TidyNames Balanced (child (n.part slot i)).run :=
  (hc (n.part slot i) h).mono fun _ hr t ht => (hr t ht).balanced

theorem yields_commaList (hc : Answers Paired c TidyNames n) {as : List α} {item : α → Item}
    (h : ∀ a ∈ as, n.item.Holds (item a)) :
    Yields c TidyNames Balanced (commaList (n.parts slot (as.map item))) :=
  yields_bind (yields_balanced hc h) fun _ hts =>
    yields_pure (balanced_intercalate (balanced_of_unmarked (by decide)) hts)

theorem yields_genericList (hc : Answers Paired c TidyNames n) {gs : List Generic}
    (h : ∀ g ∈ gs, n.item.Holds (.generic g)) :
    Yields c TidyNames Balanced (genericList n gs) := by
  refine yields_bind (yields_balanced hc h) fun ts hts => ?_
  cases ts with
  | nil => exact yields_pure balanced_empty
  | cons t ts =>
    have hsep : Balanced ", " := balanced_of_unmarked (by decide)
    exact yields_pure ((balanced_intercalate hsep hts).between opens_angle closes_angle)

theorem yields_preamble (hc : Answers Paired c TidyNames n) :
    Yields c TidyNames (fun ts => ∀ t ∈ ts, Balanced t) (preamble n) := by
  have hjavadoc : ∀ j ∈ n.item.javadoc?, n.item.Holds (.javadoc j) := fun j hj =>
    Item.holds_iff.2 (.inl (by simp [Item.heading, Option.mem_def.1 hj]))
  have hannotations : ∀ us ∈ n.item.annotations?, ∀ u ∈ us, n.item.Holds (.annotationUse u) :=
    fun us hus u hu => Item.holds_iff.2 (.inl (by simp [Item.heading, Option.mem_def.1 hus, hu]))
  have hnone : Yields c TidyNames (fun ts => ∀ t ∈ ts, Balanced t) (pure []) :=
    yields_pure fun _ ht => absurd ht List.not_mem_nil
  unfold preamble
  cases hj : n.item.javadoc?
  case' none => refine yields_bind hnone fun javadoc hlines => ?_
  case' some j =>
    refine yields_bind (Q := fun ts => ∀ t ∈ ts, Balanced t) (yields_texts fun m hm => ?_)
      fun javadoc hlines => ?_
    · obtain rfl := List.mem_singleton.1 hm
      exact gives_child hc (hjavadoc j hj)
  all_goals
    cases hus : n.item.annotations? with
    | none => exact yields_bind hnone fun _ hannotations =>
        yields_pure (List.forall_mem_append.2 ⟨hlines, hannotations⟩)
    | some us => exact yields_bind (yields_balanced hc (hannotations us hus)) fun _ hannotations =>
        yields_pure (List.forall_mem_append.2 ⟨hlines, hannotations⟩)

theorem yields_declaration (hf : Blank f) (hc : Answers Paired c TidyNames n) {signature : String}
    (h : Balanced signature) : Yields c TidyNames Balanced (declaration f n signature) := by
  refine yields_bind (yields_preamble hc) fun lines hlines => yields_pure (balanced_lines hf ?_)
  exact List.forall_mem_append.2 ⟨hlines, List.forall_mem_singleton.2 h⟩

theorem yields_members (hf : Blank f) (hc : Answers Paired c TidyNames n) {m : Members}
    (h : ∀ i ∈ m.items, n.item.Holds i) : Yields c TidyNames Balanced (m.render f n) := by
  simp only [Members.items, List.forall_mem_append, List.forall_mem_map] at h
  obtain ⟨⟨⟨⟨hfields, hinitializers⟩, hconstructors⟩, hmethods⟩, hclasses⟩ := h
  refine yields_bind (yields_balanced hc hfields) fun fields hfields => ?_
  refine yields_bind (yields_balanced hc hinitializers) fun initializers hinitializers => ?_
  refine yields_bind (yields_balanced hc hconstructors) fun constructors hconstructors => ?_
  refine yields_bind (yields_balanced hc hmethods) fun methods hmethods => ?_
  refine yields_bind (yields_balanced hc hclasses) fun classes hclasses => yields_pure ?_
  refine balanced_separate hf ?_
  simp only [List.forall_mem_cons, List.not_mem_nil, IsEmpty.forall_iff, implies_true, and_true]
  exact ⟨balanced_lines hf hfields, balanced_separate hf hinitializers,
    balanced_separate hf hconstructors, balanced_separate hf hmethods,
    balanced_separate hf hclasses⟩

theorem yields_typeClause (hc : Answers Paired c TidyNames n) {keyword : String}
    {ts : List TypeRef} (hkeyword : Unmarked keyword) (h : ∀ t ∈ ts, n.item.Holds (.type t)) :
    Yields c TidyNames Balanced (typeClause n slot keyword ts) := by
  unfold typeClause
  split
  · exact yields_pure balanced_empty
  · exact yields_bind (yields_commaList hc h) fun _ hlist => yields_pure (hlist.prepend hkeyword)

theorem yields_throwsClause (hc : Answers Paired c TidyNames n) {ts : List TypeRef}
    (h : ∀ t ∈ ts, n.item.Holds (.type t)) : Yields c TidyNames Balanced (throwsClause n ts) := by
  unfold throwsClause
  split
  · exact yields_pure balanced_empty
  · exact yields_bind (yields_commaList hc h) fun _ hlist =>
      yields_pure (hlist.prepend (by decide))

theorem gives_initialValue (hc : Answers Paired c TidyNames n) {lead : String}
    (hlead : Unmarked lead) {value : Option Value}
    (h : ∀ v, value = some v → n.item.Holds (.value v)) :
    Gives c TidyNames Balanced (initialValue n lead value).run := by
  cases value with
  | none => exact gives_draftPure balanced_empty
  | some v =>
    exact gives_draftBind (gives_child hc (h v rfl)) fun _ htext =>
      gives_draftPure (htext.prepend hlead)

theorem balanced_codeBlock (hf : Blank f) {code : List String}
    (h : ∀ line ∈ code, Unmarked line) : Balanced (codeBlock f code) :=
  balanced_block hf (balanced_code hf h)

end

section

variable {c : Children} {f : Format} (hf : Blank f) (stack : Stack) {place : Place}

include hf

/-! Type declarations. -/

theorem gives_renderClass {d : ClassDecl} (hc : Answers Paired c TidyNames ⟨.classDecl d, place⟩)
    (hname : Unmarked d.name) :
    Gives c TidyNames Balanced (renderClass ⟨f, stack⟩ ⟨.classDecl d, place⟩ d).run := by
  have hkeyword : Balanced (modifierWords stack d.modifiers ++ "class " ++ d.name) :=
    (balanced_modified stack d.modifiers (balanced_of_unmarked (by decide))).concat hname
  refine gives_draftBind (gives_lift (yields_genericList hc (by simp +contextual)))
    fun generics hgenerics => ?_
  cases hd : d.supertype
  case' none =>
    refine gives_draftBind (gives_draftPure balanced_empty) fun supertype hsupertype => ?_
  case' some t =>
    refine gives_draftBind (gives_child hc (by simp [hd])) fun text htext => ?_
    refine gives_draftBind (gives_draftPure (htext.prepend (by decide)))
      fun supertype hsupertype => ?_
  all_goals
    refine gives_draftBind (gives_lift (yields_typeClause hc (by decide) (by simp +contextual)))
      fun interfaces hinterfaces => ?_
    refine gives_draftBind (gives_lift (yields_members hf hc ?_)) fun body hbody => ?_
    · simp +contextual [Members.items]
    · have hhead := ((hkeyword.append hgenerics).append hsupertype).append hinterfaces
      have hsignature := (hhead.concat (b := " ") (by decide)).append (balanced_block hf hbody)
      exact gives_lift (yields_declaration hf hc hsignature)

theorem yields_renderInterface {d : InterfaceDecl}
    (hc : Answers Paired c TidyNames ⟨.interfaceDecl d, place⟩) (hname : Unmarked d.name) :
    Yields c TidyNames Balanced (renderInterface ⟨f, stack⟩ ⟨.interfaceDecl d, place⟩ d) := by
  have hkeyword : Balanced (modifierWords stack d.modifiers ++ "interface " ++ d.name) :=
    (balanced_modified stack d.modifiers (balanced_of_unmarked (by decide))).concat hname
  refine yields_bind (yields_genericList hc (by simp +contextual)) fun generics hgenerics => ?_
  refine yields_bind (yields_typeClause hc (by decide) (by simp +contextual))
    fun interfaces hinterfaces => ?_
  refine yields_bind (yields_members hf hc ?_) fun body hbody => ?_
  · simp +contextual [Members.items]
  have hhead := (hkeyword.append hgenerics).append hinterfaces
  exact yields_declaration hf hc
    ((hhead.concat (b := " ") (by decide)).append (balanced_block hf hbody))

theorem yields_renderEnum {d : EnumDecl} (hc : Answers Paired c TidyNames ⟨.enumDecl d, place⟩)
    (hname : Unmarked d.name) :
    Yields c TidyNames Balanced (renderEnum ⟨f, stack⟩ ⟨.enumDecl d, place⟩ d) := by
  have hkeyword : Balanced (modifierWords stack d.modifiers ++ "enum " ++ d.name) :=
    (balanced_modified stack d.modifiers (balanced_of_unmarked (by decide))).concat hname
  refine yields_bind (yields_typeClause hc (by decide) (by simp +contextual))
    fun interfaces hinterfaces => ?_
  refine yields_bind (yields_balanced hc (by simp +contextual)) fun constants hconstants => ?_
  refine yields_bind (yields_members hf hc ?_) fun members hmembers => ?_
  · simp +contextual [Members.items]
  have hseparator : Balanced ("," ++ f.lineTerminator) :=
    (balanced_lineTerminator hf).prepend (by decide)
  have hconstants : Balanced (Format.join constants ("," ++ f.lineTerminator)
      ++ if members = "" then "" else ";") := by
    refine (balanced_joined hseparator hconstants).concat ?_
    split <;> decide
  have hgroups : ∀ t ∈ [Format.join constants ("," ++ f.lineTerminator)
      ++ (if members = "" then "" else ";"), members], Balanced t :=
    List.forall_mem_cons.2 ⟨hconstants, List.forall_mem_singleton.2 hmembers⟩
  have hbody := balanced_block hf (balanced_separate hf hgroups)
  have hhead := (hkeyword.append hinterfaces).concat (b := " ") (by decide)
  exact yields_declaration hf hc (hhead.append hbody)

theorem yields_renderAnnotationDecl {d : AnnotationDecl}
    (hc : Answers Paired c TidyNames ⟨.annotationDecl d, place⟩) (hname : Unmarked d.name) :
    Yields c TidyNames Balanced (renderAnnotationDecl ⟨f, stack⟩ ⟨.annotationDecl d, place⟩ d) := by
  have hkeyword : Balanced (modifierWords stack d.modifiers ++ "@interface " ++ d.name ++ " ") :=
    ((balanced_modified stack d.modifiers (balanced_of_unmarked (by decide))).concat hname).concat
      (by decide)
  refine yields_bind (yields_balanced hc (by simp +contextual)) fun elements helements => ?_
  exact yields_declaration hf hc
    (hkeyword.append (balanced_block hf (balanced_lines hf helements)))

theorem yields_renderEnumConstant {x : EnumConstant}
    (hc : Answers Paired c TidyNames ⟨.enumConstant x, place⟩) (hname : Unmarked x.name) :
    Yields c TidyNames Balanced (renderEnumConstant ⟨f, stack⟩ ⟨.enumConstant x, place⟩ x) := by
  have hname := balanced_of_unmarked hname
  unfold renderEnumConstant
  dsimp only
  split
  case' isTrue =>
    refine yields_bind (yields_pure balanced_empty) fun arguments harguments => ?_
  case' isFalse =>
    refine yields_bind (yields_commaList hc (by simp +contextual)) fun list hlist => ?_
    refine yields_bind (yields_pure (hlist.between opens_round closes_round))
      fun arguments harguments => ?_
  all_goals
    split
    · refine yields_bind (yields_pure balanced_empty) fun body hbody => ?_
      exact yields_declaration hf hc ((hname.append harguments).append hbody)
    · refine yields_bind (yields_members hf hc ?_) fun members hmembers => ?_
      · simp +contextual [Members.items]
      · have hblock := (balanced_block hf hmembers).prepend (a := " ") (by decide)
        refine yields_bind (yields_pure hblock) fun body hbody => ?_
        exact yields_declaration hf hc ((hname.append harguments).append hbody)

/-! Members. -/

theorem gives_renderMethod {m : Method} (hc : Answers Paired c TidyNames ⟨.method m, place⟩)
    (hname : Unmarked m.name) (hcode : ∀ line ∈ m.code, Unmarked line) :
    Gives c TidyNames Balanced (renderMethod ⟨f, stack⟩ ⟨.method m, place⟩ m).run := by
  refine gives_draftBind (gives_lift (yields_genericList hc (by simp +contextual)))
    fun generics hgenerics => ?_
  refine gives_draftBind (gives_child hc (by simp)) fun type htype => ?_
  refine gives_draftBind (gives_lift (yields_commaList hc (by simp +contextual)))
    fun parameters hparameters => ?_
  refine gives_draftBind (gives_lift (yields_throwsClause hc (by simp +contextual)))
    fun throws hthrows => ?_
  have hbody : Balanced (if hasBody stack m.modifiers then " " ++ codeBlock f m.code else ";") := by
    split
    · exact (balanced_codeBlock hf hcode).prepend (by decide)
    · exact balanced_of_unmarked (by decide)
  have hgenerics : Balanced (if generics = "" then "" else generics ++ " ") := by
    split
    · exact balanced_empty
    · exact hgenerics.concat (by decide)
  have hhead := (balanced_modified stack m.modifiers hgenerics).append htype
  have hcall := ((hhead.concat (b := " ") (by decide)).concat hname).enclosed opens_round
    hparameters closes_round
  exact gives_lift (yields_declaration hf hc ((hcall.append hthrows).append hbody))

theorem gives_renderConstructor {x : Constructor}
    (hc : Answers Paired c TidyNames ⟨.constructor x, place⟩)
    (hname : ∀ name, stack.enclosing?.bind Node.name? = some name → Unmarked name)
    (hcode : ∀ line ∈ x.code, Unmarked line) :
    Gives c TidyNames Balanced (renderConstructor ⟨f, stack⟩ ⟨.constructor x, place⟩ x).run := by
  unfold renderConstructor
  dsimp only
  cases henclosing : stack.enclosing?.bind Node.name? with
  | none => exact gives_none
  | some name =>
    have hhead := balanced_modified stack x.modifiers
      (balanced_of_unmarked (hname name henclosing))
    have hfields : ∀ y ∈ x.fields, (Item.constructor x).Holds (.field y) := by simp +contextual
    refine gives_draftBind (gives_lift (yields_commaList hc hfields))
      fun parameters hparameters => ?_
    refine gives_draftBind (gives_lift (yields_throwsClause hc (by simp +contextual)))
      fun throws hthrows => ?_
    have hcall := (hhead.enclosed opens_round hparameters closes_round).append hthrows
    have hsignature := (hcall.concat (b := " ") (by decide)).append (balanced_codeBlock hf hcode)
    exact gives_lift (yields_declaration hf hc hsignature)

theorem gives_renderField {x : Field} (hc : Answers Paired c TidyNames ⟨.field x, place⟩)
    (hname : Unmarked x.name) :
    Gives c TidyNames Balanced (renderField ⟨f, stack⟩ ⟨.field x, place⟩ x).run := by
  refine gives_draftBind (gives_child hc (by simp)) fun type htype => ?_
  have hvariable {type : String} (htype : Balanced type) :
      Balanced (modifierWords stack x.modifiers ++ type ++ " " ++ x.name) :=
    ((balanced_modified stack x.modifiers htype).concat (by decide)).concat hname
  have hparameter : Gives c TidyNames Balanced (OptionT.run (m := Script) do
      let type := if isVarargs stack ⟨.field x, place⟩ x then varargsType type else type
      let annotations ← texts ((Node.mk (.field x) place).parts .annotations
        (x.annotations.map .annotationUse))
      return " ".intercalate
        (annotations ++ [modifierWords stack x.modifiers ++ type ++ " " ++ x.name])) := by
    have hannotations : ∀ u ∈ x.annotations, (Item.field x).Holds (.annotationUse u) := by
      simp +contextual [Item.heading, Item.annotations?]
    refine gives_draftBind (gives_lift (yields_balanced hc hannotations))
      fun annotations hannotations => gives_draftPure ?_
    refine balanced_intercalate (balanced_of_unmarked (by decide))
      (List.forall_mem_append.2 ⟨hannotations, List.forall_mem_singleton.2 (hvariable ?_)⟩)
    split
    · exact balanced_varargsType htype
    · exact htype
  dsimp only
  split
  · exact hparameter
  · exact hparameter
  · refine gives_draftBind (gives_initialValue hc (by decide) (by simp +contextual))
      fun value hvalue => gives_lift (yields_declaration hf hc ?_)
    have hcall : Balanced "()" := fun _ => rfl
    exact (((hvariable htype).append hcall).append hvalue).concat (by decide)
  · refine gives_draftBind (gives_initialValue hc (by decide) (by simp +contextual))
      fun value hvalue => gives_lift (yields_declaration hf hc ?_)
    exact ((hvariable htype).append hvalue).concat (by decide)

omit hf

/-! Parts of declarations. -/

theorem yields_renderType {t : TypeRef} (hc : Answers Paired c TidyNames ⟨.type t, place⟩)
    (hname : Unmarked t.name) :
    Gives c TidyNames Balanced
      (typeName t.name >>= fun name => renderTail ⟨.type t, place⟩ t name) := by
  have hspelling : Yields c TidyNames Unmarked (typeName t.name) := by
    intro d hd
    rw [run_typeName]
    refine ⟨?_, fun name hmem => ?_⟩
    · unfold Dependencies.spelling
      split
      · exact hname
      · exact Name.all_short hname
    · rcases Dependencies.mem_loaded_refer hmem with rfl | hmem
      · exact hname
      · exact hd name hmem
  have hsquare : Balanced "[]" := fun _ => rfl
  refine yields_bind hspelling fun name hname => ?_
  refine yields_bind (yields_balanced hc fun a ha => Item.holds_iff.2 (.inr (List.mem_map_of_mem ha)))
    fun arguments harguments => gives_some ?_
  refine (Balanced.append ?_ ?_).prepend hname
  · split
    · exact balanced_empty
    · exact (balanced_intercalate (balanced_of_unmarked (by decide)) harguments).between
        opens_angle closes_angle
  · exact balanced_join fun text htext => List.eq_of_mem_replicate htext ▸ hsquare

theorem yields_renderGeneric {g : Generic} (hc : Answers Paired c TidyNames ⟨.generic g, place⟩)
    (hname : ∀ name ∈ g.name, Unmarked name) :
    Yields c TidyNames Balanced (renderGeneric ⟨.generic g, place⟩ g) := by
  have hname : Unmarked (g.name.getD "?") := by
    cases hg : g.name with
    | none => decide
    | some name => exact hname name hg
  unfold renderGeneric
  dsimp only
  split
  · exact yields_pure (balanced_of_unmarked hname)
  · refine yields_bind (yields_balanced hc (by simp +contextual)) fun bounds hbounds =>
      yields_pure ?_
    have hkeyword : Unmarked g.kind.keyword := by cases g.kind <;> decide
    refine (balanced_intercalate (balanced_of_unmarked (by decide)) hbounds).prepend ?_
    simp only [Unmarked, Text.all_append]
    exact ⟨⟨⟨hname, by decide⟩, hkeyword⟩, by decide⟩

theorem gives_renderImport {x : Import} (hname : Unmarked x.type.name)
    (hmember : ∀ member ∈ x.member, Unmarked member) :
    Gives c TidyNames Balanced (renderImport x) := by
  unfold renderImport
  cases hx : x.member with
  | some member =>
    refine gives_some (balanced_of_unmarked ?_)
    simp only [Unmarked, Text.all_append]
    exact ⟨⟨⟨⟨by decide, hname⟩, by decide⟩, hmember member hx⟩, by decide⟩
  | none =>
    refine yields_dependencies_bind fun d _ => ?_
    split
    · exact gives_none
    · refine gives_some (balanced_of_unmarked ?_)
      simp only [Unmarked, Text.all_append]
      exact ⟨⟨by decide, hname⟩, by decide⟩

theorem gives_namedValues {n : Node} (hc : Answers Paired c TidyNames n)
    {pairs : List (String × Node)} (hname : ∀ q ∈ pairs, Unmarked q.1)
    (h : ∀ q ∈ pairs, n.item.Holds q.2.item) :
    Gives c TidyNames (fun ts => ∀ t ∈ ts, Balanced t) (namedValues pairs).run := by
  induction pairs with
  | nil => exact gives_draftPure fun _ ht => nomatch ht
  | cons q pairs ih =>
    obtain ⟨hq, hnames⟩ := List.forall_mem_cons.1 hname
    obtain ⟨hheld, hpairs⟩ := List.forall_mem_cons.1 h
    have hchild : Gives c TidyNames Balanced (child q.2).run :=
      (hc q.2 hheld).mono fun _ hr t ht => (hr t ht).balanced
    refine gives_draftBind hchild fun text htext => ?_
    refine gives_draftBind (ih hnames hpairs) fun rest hrest => gives_draftPure ?_
    refine List.forall_mem_cons.2 ⟨htext.prepend ?_, hrest⟩
    exact Text.all_append.2 ⟨hq, by decide⟩

theorem gives_renderAnnotationUse {u : AnnotationUse}
    (hc : Answers Paired c TidyNames ⟨.annotationUse u, place⟩)
    (hname : ∀ v ∈ u.values, Unmarked v.name) :
    Gives c TidyNames Balanced (renderAnnotationUse ⟨.annotationUse u, place⟩ u).run := by
  refine gives_draftBind (gives_child hc (by simp)) fun type htype => ?_
  have hhead : Balanced ("@" ++ type) := htype.prepend (by decide)
  split
  · cases hvalue : u.value with
    | none => exact gives_draftPure hhead
    | some v =>
      exact gives_draftBind (gives_lift (yields_commaList hc (by simp [hvalue]))) fun list hlist =>
        gives_draftPure (hhead.enclosed opens_round hlist closes_round)
  · refine gives_draftBind (gives_namedValues hc (fun q hq => ?_) fun q hq => ?_)
      fun pairs hpairs => gives_draftPure ?_
    · obtain ⟨v, hv, heq⟩ := List.mem_map.1 (List.of_mem_zip hq).1
      exact heq ▸ hname v hv
    · obtain ⟨v, hv, place, hnode⟩ := mem_parts (List.of_mem_zip hq).2
      have hheld : ∃ w ∈ u.values, w.value = v.value := ⟨v, hv, rfl⟩
      simp [hnode, hheld]
    · exact hhead.enclosed opens_round
        (balanced_intercalate (balanced_of_unmarked (by decide)) hpairs) closes_round

include hf

theorem gives_renderValue {v : Value} (hc : Answers Paired c TidyNames ⟨.value v, place⟩)
    (hstrings : ∀ text ∈ (Item.value v).strings, Unmarked text) :
    Gives c TidyNames Balanced (renderValue f ⟨.value v, place⟩ v).run := by
  cases v with
  | array items =>
    refine gives_draftBind (gives_lift (yields_commaList hc ?_)) fun list hlist => ?_
    · simp +contextual [Item.valueContents]
    · exact gives_draftPure (hlist.between opens_curly closes_curly)
  | boolean b => exact gives_draftPure (balanced_of_unmarked (by cases b <;> decide))
  | enumConstant type constant =>
    refine gives_draftBind (gives_child hc (by simp [Item.valueContents])) fun type htype => ?_
    refine gives_draftPure ((htype.concat (by decide)).concat ?_)
    exact hstrings constant (by simp)
  | number x =>
    exact gives_draftPure (balanced_of_unmarked (unmarked_of_plain (plain_numberLiteral x)))
  | reference expression =>
    exact gives_draftPure (balanced_of_unmarked (hstrings expression (by simp)))
  | text text => exact gives_draftPure (balanced_quote text)
  | null => exact gives_draftPure (balanced_of_unmarked (by decide))
  | invocation target name arguments =>
    have hname : Unmarked name := hstrings name (by simp)
    cases target
    case' none =>
      refine gives_draftBind (gives_draftPure balanced_empty) fun target htarget => ?_
    case' some t =>
      refine gives_draftBind (gives_child hc (by simp [Item.valueContents])) fun type htype => ?_
      refine gives_draftBind (gives_draftPure (htype.concat (by decide)))
        fun target htarget => ?_
    all_goals
      refine gives_draftBind (gives_lift (yields_commaList hc ?_)) fun list hlist => ?_
      · simp +contextual [Item.valueContents]
      · exact gives_draftPure ((htarget.concat hname).enclosed opens_round hlist closes_round)
  | anonymous body =>
    refine gives_draftBind (gives_child hc (by simp [Item.valueContents])) fun type htype => ?_
    refine gives_draftBind (gives_lift (yields_commaList hc ?_)) fun list hlist => ?_
    · simp +contextual [Item.valueContents]
    refine gives_draftBind (gives_lift (yields_members hf hc ?_)) fun members hmembers => ?_
    · simp +contextual [Item.valueContents, Members.items]
    have hnew : Balanced ("new " ++ type) := htype.prepend (by decide)
    have hcloses : Closes .round ") " := fun _ => rfl
    exact gives_draftPure
      ((hnew.enclosed opens_round hlist hcloses).append (balanced_block hf hmembers))

/-! Comments. -/

theorem gives_renderJavadoc {j : Javadoc} (hc : Answers Paired c TidyNames ⟨.javadoc j, place⟩)
    (htext : Unmarked j.text) :
    Gives c TidyNames Balanced (renderJavadoc f ⟨.javadoc j, place⟩ j) := by
  unfold renderJavadoc
  split
  · exact gives_none
  · have htags : Yields c TidyNames (fun ts => ∀ t ∈ ts, Unmarked t)
        (texts ((Node.mk (.javadoc j) place).parts .tags (j.tags.map .javadocTag))) :=
      hc.parts (by simp +contextual) fun _ _ ht => ht
    refine yields_bind htags fun tags htags => gives_some (balanced_lines hf ?_)
    refine fun line hline => balanced_of_unmarked ?_
    simp only [List.mem_append, List.mem_singleton, List.mem_flatMap] at hline
    rcases hline with (((rfl | hline) | hline) | ⟨tag, htag, hline⟩) | rfl
    · decide
    · exact unmarked_of_mem_commentLines htext.trim hline
    · split at hline
      · rw [List.mem_singleton.1 hline]
        decide
      · exact nomatch hline
    · exact unmarked_of_mem_commentLines (htags tag htag) hline
    · decide

end

/-- What is written for an item of a type declaration, or for a part of one, is paired as soon as
what is written for its own parts is. -/
theorem gives_script {c : Children} {f : Format} {stack : Stack} {n : Node} (hf : Blank f)
    (hfile : n.kind ≠ .file) (hn : Tidy n.item) (hstack : ∀ m ∈ stack.nodes, Tidy m.item)
    (hc : Answers Paired c TidyNames n) :
    Gives c TidyNames (Paired n.item) (script ⟨f, stack.push n⟩ n) := by
  obtain ⟨item, place⟩ := n
  have hstrings : ∀ text ∈ item.strings, Unmarked text := fun text htext =>
    hn text (List.mem_append_left _ htext)
  have hprose : ∀ text ∈ item.prose, Unmarked text := fun text htext =>
    hn text (List.mem_append_right _ htext)
  cases item with
  | file => exact absurd rfl hfile
  | classDecl d => exact gives_renderClass hf _ hc (hstrings d.name (by simp))
  | interfaceDecl d =>
    exact gives_map (yields_renderInterface hf _ hc (hstrings d.name (by simp)))
  | enumDecl d => exact gives_map (yields_renderEnum hf _ hc (hstrings d.name (by simp)))
  | annotationDecl d =>
    exact gives_map (yields_renderAnnotationDecl hf _ hc (hstrings d.name (by simp)))
  | enumConstant x =>
    exact gives_map (yields_renderEnumConstant hf _ hc (hstrings x.name (by simp)))
  | method m => exact gives_renderMethod hf _ hc (hstrings m.name (by simp)) hprose
  | constructor x =>
    refine gives_renderConstructor hf _ hc (fun name hname => ?_) hprose
    obtain ⟨m, hm, hmem⟩ := mem_strings_of_enclosing hname
    exact hstack m hm name (List.mem_append_left _ hmem)
  | field x => exact gives_renderField hf _ hc (hstrings x.name (by simp))
  | generic g =>
    exact gives_map (yields_renderGeneric hc fun name hname =>
      hstrings name (by simpa using hname))
  | importDecl x =>
    exact gives_renderImport (hstrings x.type.name (by simp)) fun member hmember =>
      hstrings member (by simp [Option.mem_def.1 hmember])
  | javadoc j =>
    rw [script_javadoc]
    exact gives_renderJavadoc hf hc (hprose j.text (by simp))
  | javadocTag t => exact gives_some (unmarked_renderJavadocTag hn)
  | annotationUse u =>
    exact gives_renderAnnotationUse hc fun v hv => hstrings v.name (List.mem_map_of_mem hv)
  | initializer i =>
    refine gives_some ((balanced_codeBlock hf hprose).prepend ?_)
    split <;> decide
  | type t =>
    rw [script_type]
    exact yields_renderType hc (hstrings t.name (by simp))
  | value v =>
    rw [script_value]
    exact gives_renderValue hf hc hstrings
  | document | declaration | tag | tagAttribute | text => exact gives_none

end Scribe.Java
