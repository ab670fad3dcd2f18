import Scribe.Proofs.Java.File
import Scribe.Proofs.Java.OneLine
import Scribe.Proofs.Layout.Passage
import Scribe.Proofs.Layout.Uniform

/-!
The Java transforms in different formats. Types are written on one line, and no format changes them;
all else that is rendered below a file has the same lines in every format. Where no line of code is
empty, an empty line is found between two groups only, each of which ends with a brace, a semicolon
or a comment.
-/
namespace Scribe.Java

open Script
open Text (OneLine)

def isCallable (parent : Option Kind) : Bool :=
  parent == some .method || parent == some .constructor

/-- How the text of an item varies with the format. All but a parameter, a value and what stands
above a declaration or between commas is a group of lines. -/
def Varies (p : Prop) (parent : Option Kind) : Item → (RegularFormat → String) → Prop
  | .type _ | .generic _ => Fixed OneLine
  | .javadocTag _ => Fixed fun _ => True
  | .annotationUse _ | .enumConstant _ | .value _ => Flow p
  | .field _ => Passage p (!isCallable parent)
  | _ => Group p

theorem Varies.flow {p : Prop} {parent : Option Kind} {i : Item} {t : RegularFormat → String}
    (h : Varies p parent i t) (hi : ∀ x, i ≠ .javadocTag x) : Flow p t := by
  cases i with
  | type | generic => exact .of_fixed h
  | javadocTag x => exact absurd rfl (hi x)
  | _ => exact Passage.flow h

def Answered (p : Prop) (c : RegularFormat → Children) (n : Node) : Prop :=
  ∀ m : Node, n.item.Holds m.item →
    Uniform c (Perhaps (Varies p (some n.kind) m.item)) fun _ => text? m

section

variable {p : Prop} {c : RegularFormat → Children} {n : Node} {slot : Slot}

/-! Fragments. -/

theorem uniform_parts (hc : Answered p c n) {as : List α} {item : α → Item}
    {Q : (RegularFormat → String) → Prop} (h : ∀ a ∈ as, n.item.Holds (item a))
    (hQ : ∀ a t, Varies p (some n.kind) (item a) t → Q t) :
    Uniform c (Each Q) fun _ => texts (n.parts slot (as.map item)) := by
  refine uniform_texts fun m hm => ?_
  obtain ⟨a, ha, place, rfl⟩ := mem_parts hm
  exact (hc ⟨item a, place⟩ (h a ha)).mono fun t ht => ht.mono (hQ a)

theorem uniform_flows (hc : Answered p c n) {as : List α} {item : α → Item}
    (h : ∀ a ∈ as, n.item.Holds (item a)) (hitem : ∀ a x, item a ≠ .javadocTag x) :
    Uniform c (Each (Flow p)) fun _ => texts (n.parts slot (as.map item)) :=
  uniform_parts hc h fun a _ ht => ht.flow (hitem a)

theorem uniform_groups (hc : Answered p c n) {as : List α} {item : α → Item}
    (h : ∀ a ∈ as, n.item.Holds (item a))
    (hitem : ∀ a, Varies p (some n.kind) (item a) = Group p) :
    Uniform c (Each (Group p)) fun _ => texts (n.parts slot (as.map item)) :=
  uniform_parts hc h fun a t ht => by rwa [hitem] at ht

theorem uniform_commaList (hc : Answered p c n) {as : List α} {item : α → Item}
    (h : ∀ a ∈ as, n.item.Holds (item a)) (hitem : ∀ a x, item a ≠ .javadocTag x) :
    Uniform c (Flow p) fun _ => commaList (n.parts slot (as.map item)) :=
  uniform_bind (uniform_flows hc h hitem) fun _ hts =>
    uniform_pure (Passage.intercalate (by decide) hts)

theorem uniform_typeList (hc : Answered p c n) {ts : List TypeRef}
    (h : ∀ t ∈ ts, n.item.Holds (.type t)) : Uniform c (Flow p) fun _ => typeList n slot ts :=
  uniform_commaList hc h (by simp)

theorem uniform_argumentList (hc : Answered p c n) {vs : List Value}
    (h : ∀ v ∈ vs, n.item.Holds (.value v)) : Uniform c (Flow p) fun _ => argumentList n slot vs :=
  uniform_commaList hc h (by simp)

theorem uniform_type (hc : Answered p c n) {t : TypeRef} (h : n.item.Holds (.type t)) :
    Uniform c (Perhaps (Fixed OneLine)) fun _ => (child (n.part slot (.type t))).run :=
  hc (n.part slot (.type t)) h

theorem uniform_value (hc : Answered p c n) {v : Value} (h : n.item.Holds (.value v)) :
    Uniform c (Perhaps (Flow p)) fun _ => (child (n.part slot (.value v))).run :=
  hc (n.part slot (.value v)) h

theorem uniform_genericList (hc : Answered p c n) {gs : List Generic}
    (h : ∀ g ∈ gs, n.item.Holds (.generic g)) : Uniform c (Flow p) fun _ => genericList n gs := by
  refine uniform_bind (uniform_flows hc h (by simp)) fun ts hts => ?_
  obtain ⟨ts, hts, rfl⟩ := hts
  cases ts with
  | nil => exact uniform_pure .empty
  | cons t ts =>
    have hlist : Flow p fun f => ", ".intercalate ((t :: ts).map (· f)) :=
      .intercalate (by decide) ⟨t :: ts, hts, rfl⟩
    exact uniform_pure ((hlist.prepend (by decide)).concat (by decide))

theorem uniform_preamble (hc : Answered p c n) :
    Uniform c (Each (Flow p)) fun _ => preamble n := by
  have hjavadoc (j : Javadoc) (hj : n.item.javadoc? = some j) :
      n.item.Holds (.javadoc j) := Item.holds_iff.2 (.inl (by simp [Item.heading, hj]))
  have hannotations (us : List AnnotationUse) (hus : n.item.annotations? = some us) :
      ∀ u ∈ us, n.item.Holds (.annotationUse u) := fun u hu =>
    Item.holds_iff.2 (.inl (by simp [Item.heading, hus, hu]))
  unfold preamble
  cases hj : n.item.javadoc?
  case' none =>
    refine uniform_bind (Q := Each (Flow p)) (uniform_pure .nil) fun javadoc hlines => ?_
  case' some j =>
    refine uniform_bind (Q := Each (Flow p)) (uniform_texts fun m hm => ?_)
      fun javadoc hlines => ?_
    · obtain rfl := List.mem_singleton.1 hm
      exact (hc (n.part .javadoc (.javadoc j)) (hjavadoc j hj)).mono fun t ht =>
        ht.mono fun _ => Passage.flow
  all_goals
    cases hus : n.item.annotations? with
    | none => exact uniform_bind (uniform_pure .nil) fun _ hus => uniform_pure (hlines.append hus)
    | some us =>
      exact uniform_bind (uniform_flows hc (hannotations us hus) (by simp)) fun _ hus =>
        uniform_pure (hlines.append hus)

theorem uniform_declaration (hc : Answered p c n) {signature : RegularFormat → String}
    (h : Ending p signature) : Uniform c (Group p) fun f => declaration f.1 n (signature f) :=
  uniform_bind (uniform_preamble hc) fun _ hlines => uniform_pure (Passage.lines_concat hlines h)

theorem uniform_members (hc : Answered p c n) (hn : isCallable (some n.kind) = false) {m : Members}
    (h : ∀ i ∈ m.items, n.item.Holds i) : Uniform c (Group p) fun f => m.render f.1 n := by
  simp only [Members.items, List.forall_mem_append, List.forall_mem_map] at h
  obtain ⟨⟨⟨⟨hfields, hinitializers⟩, hconstructors⟩, hmethods⟩, hclasses⟩ := h
  have hfield (x : Field) : Varies p (some n.kind) (.field x) = Group p := by
    rw [Varies, hn]
    rfl
  refine uniform_bind (uniform_groups hc hfields hfield) fun fields hfields => ?_
  refine uniform_bind (uniform_groups hc hinitializers fun _ => rfl)
    fun initializers hinitializers => ?_
  refine uniform_bind (uniform_groups hc hconstructors fun _ => rfl)
    fun constructors hconstructors => ?_
  refine uniform_bind (uniform_groups hc hmethods fun _ => rfl) fun methods hmethods => ?_
  refine uniform_bind (uniform_groups hc hclasses fun d => by cases d <;> rfl)
    fun classes hclasses => ?_
  have hgroups := Each.cons (Passage.lines hfields) (.cons (Passage.separate hinitializers)
    (.cons (Passage.separate hconstructors) (.cons (Passage.separate hmethods)
      (.cons (Passage.separate hclasses) .nil))))
  exact uniform_pure (Passage.separate hgroups)

theorem uniform_typeClause (hc : Answered p c n) {keyword : String} {ts : List TypeRef}
    (hkeyword : OneLine keyword) (h : ∀ t ∈ ts, n.item.Holds (.type t)) :
    Uniform c (Flow p) fun _ => typeClause n slot keyword ts := by
  unfold typeClause
  split
  · exact uniform_pure .empty
  · exact uniform_bind (uniform_typeList hc h) fun _ hlist => uniform_pure (hlist.prepend hkeyword)

theorem ending_codeBlock {code : List String}
    (h : p → ∀ statement ∈ code, "" ∉ Text.splitOn "\n" statement) :
    Ending p fun f => codeBlock f.1 code :=
  .block (.code h)

end

/-! Type declarations. -/

section

variable {p : Prop} {c : RegularFormat → Children} (stack : Stack) {place : Place}

theorem uniform_renderClass {d : ClassDecl} (hc : Answered p c ⟨.classDecl d, place⟩)
    (hname : OneLine d.name) : Uniform c (Perhaps (Group p)) fun f =>
      (renderClass ⟨f.1, stack⟩ ⟨.classDecl d, place⟩ d).run := by
  have hkeyword : OneLine (modifierWords stack d.modifiers ++ "class " ++ d.name) :=
    oneLine_modified stack d.modifiers (by decide) hname
  have hdeclaration {generics supertype interfaces body : RegularFormat → String}
      (hgenerics : Flow p generics) (hsupertype : Flow p supertype)
      (hinterfaces : Flow p interfaces) (hbody : Group p body) := by
    have hhead := ((hgenerics.prepend hkeyword).append hsupertype).append hinterfaces
    have hsignature := (hhead.concat (c := " ") (by decide)).close (.block hbody)
    exact uniform_lift (uniform_declaration hc hsignature)
  refine uniform_draftBind (uniform_lift (uniform_genericList hc (by simp +contextual)))
    fun generics hgenerics => ?_
  cases hd : d.supertype
  case' none =>
    refine uniform_draftBind (Q := Flow p) (uniform_draftPure .empty) fun supertype hsupertype => ?_
  case' some t =>
    refine uniform_draftBind (uniform_type hc (by simp [hd])) fun text htext => ?_
    refine uniform_draftBind (Q := Flow p)
      (uniform_draftPure ((Passage.of_fixed htext).prepend (by decide)))
      fun supertype hsupertype => ?_
  all_goals
    refine uniform_draftBind (uniform_lift (uniform_typeClause hc (by decide)
      (by simp +contextual))) fun interfaces hinterfaces => ?_
    refine uniform_draftBind (uniform_lift (uniform_members hc rfl ?_)) fun body hbody => ?_
    · simp +contextual [Members.items]
    · exact hdeclaration hgenerics hsupertype hinterfaces hbody

theorem uniform_renderInterface {d : InterfaceDecl} (hc : Answered p c ⟨.interfaceDecl d, place⟩)
    (hname : OneLine d.name) : Uniform c (Group p) fun f =>
      renderInterface ⟨f.1, stack⟩ ⟨.interfaceDecl d, place⟩ d := by
  have hkeyword : OneLine (modifierWords stack d.modifiers ++ "interface " ++ d.name) :=
    oneLine_modified stack d.modifiers (by decide) hname
  refine uniform_bind (uniform_genericList hc (by simp +contextual)) fun generics hgenerics => ?_
  refine uniform_bind (uniform_typeClause hc (by decide) (by simp +contextual))
    fun interfaces hinterfaces => ?_
  refine uniform_bind (uniform_members hc rfl ?_) fun body hbody => ?_
  · simp +contextual [Members.items]
  · have hhead := (hgenerics.prepend hkeyword).append hinterfaces
    exact uniform_declaration hc ((hhead.concat (c := " ") (by decide)).close (.block hbody))

theorem flow_enumBody {constants : RegularFormat → List String} {members : RegularFormat → String}
    (hconstants : Each (Flow p) constants) (hmembers : Group p members) : Flow p fun f =>
      f.1.separate [Format.join (constants f) ("," ++ f.1.lineTerminator)
        ++ (if members f = "" then "" else ";"), members f] := by
  have hlist := Passage.listed hconstants
  rcases hmembers.eq_empty_or with hempty | hne
  · simpa [hempty, Format.separate_empty] using hlist
  · have hended := hlist.close (.line (c := ";") (by decide) (by decide))
    simp only [hne, ↓reduceIte]
    exact (Passage.separate (.cons hended.group (.cons hmembers .nil))).flow

theorem uniform_renderEnum {d : EnumDecl} (hc : Answered p c ⟨.enumDecl d, place⟩)
    (hname : OneLine d.name) : Uniform c (Group p) fun f =>
      renderEnum ⟨f.1, stack⟩ ⟨.enumDecl d, place⟩ d := by
  have hkeyword : OneLine (modifierWords stack d.modifiers ++ "enum " ++ d.name) :=
    oneLine_modified stack d.modifiers (by decide) hname
  refine uniform_bind (uniform_typeClause hc (by decide) (by simp +contextual))
    fun interfaces hinterfaces => ?_
  refine uniform_bind (uniform_flows hc (by simp +contextual) (by simp))
    fun constants hconstants => ?_
  refine uniform_bind (uniform_members hc rfl ?_) fun members hmembers => ?_
  · simp +contextual [Members.items]
  · have hhead := (hinterfaces.prepend hkeyword).concat (c := " ") (by decide)
    exact uniform_declaration hc (hhead.close (.block (flow_enumBody hconstants hmembers)))

theorem uniform_renderAnnotationDecl {d : AnnotationDecl}
    (hc : Answered p c ⟨.annotationDecl d, place⟩) (hname : OneLine d.name) :
    Uniform c (Group p) fun f =>
      renderAnnotationDecl ⟨f.1, stack⟩ ⟨.annotationDecl d, place⟩ d := by
  have hkeyword : OneLine (modifierWords stack d.modifiers ++ "@interface " ++ d.name ++ " ") :=
    Text.oneLine_append.2 ⟨oneLine_modified stack d.modifiers (by decide) hname, by decide⟩
  refine uniform_bind (uniform_flows hc (by simp +contextual) (by simp))
    fun elements helements => ?_
  exact uniform_declaration hc ((Passage.line hkeyword).close (.block (Passage.lines helements)))

theorem uniform_renderEnumConstant {x : EnumConstant} (hc : Answered p c ⟨.enumConstant x, place⟩)
    (hname : OneLine x.name) : Uniform c (Flow p) fun f =>
      renderEnumConstant ⟨f.1, stack⟩ ⟨.enumConstant x, place⟩ x := by
  have hdeclaration {arguments body : RegularFormat → String} (harguments : Flow p arguments)
      (hbody : Flow p body) : Uniform c (Flow p) fun f =>
        declaration f.1 ⟨.enumConstant x, place⟩ (x.name ++ arguments f ++ body f) :=
    uniform_bind (uniform_preamble hc) fun _ hlines => uniform_pure
      (Passage.lines (hlines.append (.cons ((harguments.prepend hname).append hbody) .nil)))
  unfold renderEnumConstant
  dsimp only
  split
  case' isTrue =>
    refine uniform_bind (Q := Flow p) (uniform_pure .empty) fun arguments harguments => ?_
  case' isFalse =>
    refine uniform_bind (uniform_argumentList hc (by simp +contextual)) fun list hlist => ?_
    refine uniform_bind (uniform_pure ((hlist.prepend (by decide)).concat (by decide)))
      fun arguments harguments => ?_
  all_goals
    split
    · exact uniform_bind (uniform_pure .empty) fun body hbody => hdeclaration harguments hbody
    · refine uniform_bind (uniform_members hc rfl ?_) fun members hmembers => ?_
      · simp +contextual [Members.items]
      · have hblock := (Ending.block hmembers).group.flow.prepend (c := " ") (by decide)
        exact uniform_bind (uniform_pure hblock) fun body hbody => hdeclaration harguments hbody

/-! Members. -/

theorem uniform_throwsClause {n : Node} (hc : Answered p c n) {ts : List TypeRef}
    (h : ∀ t ∈ ts, n.item.Holds (.type t)) : Uniform c (Flow p) fun _ => throwsClause n ts := by
  unfold throwsClause
  split
  · exact uniform_pure (.line (by decide))
  · exact uniform_bind (uniform_typeList hc h) fun _ hlist =>
      uniform_pure (hlist.prepend (by decide))

theorem uniform_parameters {n : Node} (hc : Answered p c n) {fields : List Field}
    (h : ∀ x ∈ fields, n.item.Holds (.field x)) : Uniform c (Flow p) fun _ => parameters n fields :=
  uniform_commaList hc h (by simp)

theorem uniform_renderMethod {m : Method} (hc : Answered p c ⟨.method m, place⟩)
    (hname : OneLine m.name)
    (hcode : p → ∀ statement ∈ m.code, "" ∉ Text.splitOn "\n" statement) :
    Uniform c (Perhaps (Group p)) fun f =>
      (renderMethod ⟨f.1, stack⟩ ⟨.method m, place⟩ m).run := by
  refine uniform_draftBind (uniform_lift (uniform_genericList hc (by simp +contextual)))
    fun generics hgenerics => ?_
  refine uniform_draftBind (uniform_type hc (by simp)) fun type htype => ?_
  refine uniform_draftBind (uniform_lift (uniform_parameters hc (by simp +contextual)))
    fun parameters hparameters => ?_
  refine uniform_draftBind (uniform_lift (uniform_throwsClause hc (by simp +contextual)))
    fun throws hthrows => ?_
  have hbody : Ending p fun f => if hasBody stack m.modifiers then " " ++ codeBlock f.1 m.code
      else ";" := by
    split
    · exact (Passage.line (by decide)).close (ending_codeBlock hcode)
    · exact .line (by decide) (by decide)
  have hgenerics : Flow p fun f => if generics f = "" then "" else generics f ++ " " :=
    hgenerics.ite_empty .empty (hgenerics.concat (by decide))
  have hhead := (hgenerics.prepend (oneLine_modifierWords stack m.modifiers)).append
    (.of_fixed htype)
  have hcall := ((hhead.concat (c := " ") (by decide)).concat hname).concat (c := "(")
    (by decide)
  have hsignature := (hcall.append hparameters).concat (c := ")") (by decide)
  exact uniform_lift (uniform_declaration hc ((hsignature.append hthrows).close hbody))

theorem uniform_renderConstructor {x : Constructor} (hc : Answered p c ⟨.constructor x, place⟩)
    (hname : ∀ name, stack.enclosing?.bind Node.name? = some name → OneLine name)
    (hcode : p → ∀ statement ∈ x.code, "" ∉ Text.splitOn "\n" statement) :
    Uniform c (Perhaps (Group p)) fun f =>
      (renderConstructor ⟨f.1, stack⟩ ⟨.constructor x, place⟩ x).run := by
  unfold renderConstructor
  dsimp only
  cases henclosing : stack.enclosing?.bind Node.name? with
  | none => exact uniform_none
  | some name =>
    have hfields : ∀ y ∈ x.fields, (Item.constructor x).Holds (.field y) := by simp +contextual
    have hwords : OneLine (modifierWords stack x.modifiers ++ name ++ "(") :=
      oneLine_modified stack x.modifiers (hname name henclosing) (by decide)
    refine uniform_draftBind (uniform_lift (uniform_parameters hc hfields))
      fun parameters hparameters => ?_
    refine uniform_draftBind (uniform_lift (uniform_throwsClause hc (by simp +contextual)))
      fun throws hthrows => ?_
    have hsignature := (hparameters.prepend hwords).concat (c := ")") (by decide)
    have hhead := (hsignature.append hthrows).concat (c := " ") (by decide)
    exact uniform_lift (uniform_declaration hc (hhead.close (ending_codeBlock hcode)))

theorem uniform_initialValue {n : Node} (hc : Answered p c n) {lead : String} (hlead : OneLine lead)
    {value : Option Value} (h : ∀ v, value = some v → n.item.Holds (.value v)) :
    Uniform c (Perhaps (Flow p)) fun _ => (initialValue n lead value).run := by
  cases value with
  | none => exact uniform_draftPure .empty
  | some v =>
    exact uniform_draftBind (uniform_value hc (h v rfl)) fun _ htext =>
      uniform_draftPure (htext.prepend hlead)

theorem uniform_renderField {x : Field} (hc : Answered p c ⟨.field x, place⟩)
    (hname : OneLine x.name) :
    Uniform c (Perhaps (Passage p (!isCallable (stack.parent?.map Node.kind)))) fun f =>
      (renderField ⟨f.1, stack⟩ ⟨.field x, place⟩ x).run := by
  refine uniform_draftBind (uniform_type hc (by simp)) fun type htype => ?_
  obtain ⟨type, htype, rfl⟩ := htype
  have hvariable {type : String} (htype : OneLine type) :
      OneLine (modifierWords stack x.modifiers ++ type ++ " " ++ x.name) :=
    Text.oneLine_append.2 ⟨oneLine_modified stack x.modifiers htype (by decide), hname⟩
  have hparameter : Uniform c (Perhaps (Flow p)) fun _ => OptionT.run (m := Script) do
      let type := if isVarargs stack ⟨.field x, place⟩ x then varargsType type else type
      let annotations ← texts ((Node.mk (.field x) place).parts .annotations
        (x.annotations.map .annotationUse))
      return " ".intercalate
        (annotations ++ [modifierWords stack x.modifiers ++ type ++ " " ++ x.name]) := by
    have hannotations : ∀ u ∈ x.annotations, (Item.field x).Holds (.annotationUse u) := by
      simp +contextual [Item.heading, Item.annotations?]
    refine uniform_draftBind (uniform_lift (uniform_flows hc hannotations (by simp)))
      fun annotations hannotations => uniform_draftPure ?_
    refine Passage.intercalate (by decide) (hannotations.append (.cons (.line ?_) .nil))
    refine hvariable ?_
    split
    · exact oneLine_varargsType htype
    · exact htype
  have hsemicolon : Ending p fun _ => ";" := .line (by decide) (by decide)
  dsimp only
  split
  · next hparent => simpa [hparent, isCallable] using hparameter
  · next hparent => simpa [hparent, isCallable] using hparameter
  · refine uniform_draftBind (uniform_initialValue hc (by decide) (by simp +contextual))
      fun value hvalue => uniform_lift ((uniform_declaration hc ?_).mono fun _ => .of_group)
    have hcall := Text.oneLine_append.2 ⟨hvariable htype, (by decide : OneLine "()")⟩
    exact (hvalue.prepend hcall).close hsemicolon
  · refine uniform_draftBind (uniform_initialValue hc (by decide) (by simp +contextual))
      fun value hvalue => uniform_lift ((uniform_declaration hc ?_).mono fun _ => .of_group)
    exact (hvalue.prepend (hvariable htype)).close hsemicolon

/-! Parts of declarations. -/

theorem uniform_renderType {t : TypeRef} (hc : Answered p c ⟨.type t, place⟩)
    (hname : OneLine t.name) :
    Uniform c (Perhaps (Fixed OneLine)) fun _ =>
      (typeName t.name >>= fun name => renderTail ⟨.type t, place⟩ t name) := by
  have hspelling : Uniform c (Fixed OneLine) fun _ => typeName t.name := by
    intro d hd
    refine ⟨fun _ => d.spelling t.name, d.refer t.name, ⟨_, ?_, rfl⟩, ?_, fun f => ?_⟩
    · unfold Dependencies.spelling
      split
      · exact hname
      · exact Name.oneLine_short hname
    · intro name hmem
      rcases Dependencies.mem_loaded_refer hmem with rfl | hmem
      · exact hname
      · exact hd name hmem
    · exact run_typeName (c f) t.name d
  refine uniform_bind hspelling fun name hname => ?_
  obtain ⟨name, hname, rfl⟩ := hname
  have harguments : Uniform c (Each (Fixed OneLine)) fun _ =>
      texts ((Node.mk (.type t) place).parts .arguments (t.arguments.map .ofArgument)) :=
    uniform_parts hc (fun a ha => Item.holds_iff.2 (.inr (List.mem_map_of_mem ha)))
      fun a _ ht => by cases a <;> exact ht
  refine uniform_bind harguments fun arguments harguments => uniform_pure (.inr ?_)
  obtain ⟨arguments, hlines, rfl⟩ := harguments.fixed
  exact ⟨_, ⟨_, Text.oneLine_append.2 ⟨hname, oneLine_typeTail t hlines⟩, rfl⟩, rfl⟩

theorem uniform_renderGeneric {g : Generic} (hc : Answered p c ⟨.generic g, place⟩)
    (hname : ∀ name ∈ g.name, OneLine name) :
    Uniform c (Fixed OneLine) fun _ => renderGeneric ⟨.generic g, place⟩ g := by
  have hname : OneLine (g.name.getD "?") := by
    cases hg : g.name with
    | none => decide
    | some name => exact hname name hg
  unfold renderGeneric
  dsimp only
  split
  · exact uniform_pure ⟨_, hname, rfl⟩
  · have hbounds : Uniform c (Each (Fixed OneLine)) fun _ =>
        texts ((Node.mk (.generic g) place).parts .bounds (g.bounds.map .type)) :=
      uniform_parts hc (by simp +contextual) fun _ _ ht => ht
    refine uniform_bind hbounds fun bounds hbounds => uniform_pure ?_
    obtain ⟨bounds, hlines, rfl⟩ := hbounds.fixed
    have hkeyword : OneLine g.kind.keyword := by cases g.kind <;> decide
    refine ⟨_, ?_, rfl⟩
    simp only [Text.oneLine_append]
    exact ⟨⟨⟨⟨hname, by decide⟩, hkeyword⟩, by decide⟩,
      Text.oneLine_intercalate (by decide) hlines⟩

theorem uniform_renderImport {x : Import} (hname : OneLine x.type.name)
    (hmember : ∀ member ∈ x.member, OneLine member) :
    Uniform c (Perhaps (Group p)) fun _ => renderImport x := by
  have hsemicolon : Ending p fun _ => ";" := .line (by decide) (by decide)
  unfold renderImport
  cases hx : x.member with
  | some member =>
    have hline : OneLine ("import static " ++ x.type.name ++ "." ++ member) := by
      simp only [Text.oneLine_append]
      exact ⟨⟨⟨by decide, hname⟩, by decide⟩, hmember member hx⟩
    exact uniform_pure (.inr ⟨_, ((Passage.line hline).close hsemicolon).group, rfl⟩)
  | none =>
    have hline : OneLine ("import " ++ x.type.name) := Text.oneLine_append.2 ⟨by decide, hname⟩
    refine uniform_dependencies_bind fun d _ => ?_
    split
    · exact uniform_none
    · exact uniform_pure (.inr ⟨_, ((Passage.line hline).close hsemicolon).group, rfl⟩)

theorem uniform_namedValues {n : Node} (hc : Answered p c n) {pairs : List (String × Node)}
    (hname : ∀ q ∈ pairs, OneLine q.1) (h : ∀ q ∈ pairs, ∃ v place, q.2 = ⟨.value v, place⟩
      ∧ n.item.Holds (.value v)) :
    Uniform c (Perhaps (Each (Flow p))) fun _ => (namedValues pairs).run := by
  induction pairs with
  | nil => exact uniform_draftPure .nil
  | cons q pairs ih =>
    obtain ⟨name, m⟩ := q
    obtain ⟨hname, hnames⟩ := List.forall_mem_cons.1 hname
    obtain ⟨⟨v, place, rfl, hv⟩, hpairs⟩ := List.forall_mem_cons.1 h
    have hlead := Text.oneLine_append.2 ⟨hname, (by decide : OneLine " = ")⟩
    refine uniform_draftBind (hc ⟨.value v, place⟩ hv) fun text htext => ?_
    refine uniform_draftBind (ih hnames hpairs) fun rest hrest => uniform_draftPure ?_
    exact .cons (htext.prepend hlead) hrest

theorem uniform_renderAnnotationUse {u : AnnotationUse}
    (hc : Answered p c ⟨.annotationUse u, place⟩) (hname : ∀ v ∈ u.values, OneLine v.name) :
    Uniform c (Perhaps (Flow p)) fun _ =>
      (renderAnnotationUse ⟨.annotationUse u, place⟩ u).run := by
  refine uniform_draftBind (uniform_type hc (by simp)) fun type htype => ?_
  have hhead : Flow p fun f => "@" ++ type f := (Passage.of_fixed htype).prepend (by decide)
  have hopen : Flow p fun f => "@" ++ type f ++ "(" := hhead.concat (by decide)
  split
  · cases hvalue : u.value with
    | none => exact uniform_draftPure hhead
    | some v =>
      refine uniform_draftBind (uniform_lift (uniform_argumentList hc (by simp [hvalue])))
        fun list hlist => uniform_draftPure ?_
      exact (hopen.append hlist).concat (by decide)
  · refine uniform_draftBind (uniform_namedValues hc (fun q hq => ?_) fun q hq => ?_)
      fun pairs hpairs => uniform_draftPure ?_
    · obtain ⟨v, hv, heq⟩ := List.mem_map.1 (List.of_mem_zip hq).1
      exact heq ▸ hname v hv
    · obtain ⟨v, hv, place, hnode⟩ := mem_parts (List.of_mem_zip hq).2
      have hheld : ∃ w ∈ u.values, w.value = v.value := ⟨v, hv, rfl⟩
      exact ⟨v.value, place, hnode, by simp [hheld]⟩
    · exact (hopen.append (Passage.intercalate (by decide) hpairs)).concat (by decide)

theorem uniform_renderValue {v : Value} (hc : Answered p c ⟨.value v, place⟩)
    (hstrings : ∀ text ∈ (Item.value v).strings, OneLine text) :
    Uniform c (Perhaps (Flow p)) fun f => (renderValue f.1 ⟨.value v, place⟩ v).run := by
  cases v with
  | array items =>
    refine uniform_draftBind (uniform_lift (uniform_argumentList hc ?_)) fun list hlist => ?_
    · simp +contextual [Item.valueContents]
    · exact uniform_draftPure ((hlist.prepend (by decide)).concat (by decide))
  | boolean b => exact uniform_draftPure (.line (by cases b <;> decide))
  | enumConstant type constant =>
    refine uniform_draftBind (uniform_type hc (by simp [Item.valueContents])) fun type htype => ?_
    refine uniform_draftPure (((Passage.of_fixed htype).concat (by decide)).concat ?_)
    exact hstrings constant (by simp)
  | number x => exact uniform_draftPure (.line (Text.oneLine_of_plain (plain_numberLiteral x)))
  | reference expression => exact uniform_draftPure (.line (hstrings expression (by simp)))
  | text text => exact uniform_draftPure (.line (oneLine_quote text))
  | null => exact uniform_draftPure (.line (by decide))
  | invocation target name arguments =>
    have hname : OneLine name := hstrings name (by simp)
    cases target
    case' none =>
      refine uniform_draftBind (Q := Flow p) (uniform_draftPure .empty) fun target htarget => ?_
    case' some t =>
      refine uniform_draftBind (uniform_type hc (by simp [Item.valueContents]))
        fun type htype => ?_
      refine uniform_draftBind (Q := Flow p)
        (uniform_draftPure ((Passage.of_fixed htype).concat (by decide))) fun target htarget => ?_
    all_goals
      refine uniform_draftBind (uniform_lift (uniform_argumentList hc ?_)) fun list hlist => ?_
      · simp +contextual [Item.valueContents]
      · have hcall := (htarget.concat hname).concat (c := "(") (by decide)
        exact uniform_draftPure ((hcall.append hlist).concat (by decide))
  | anonymous body =>
    refine uniform_draftBind (uniform_type hc (by simp [Item.valueContents])) fun type htype => ?_
    refine uniform_draftBind (uniform_lift (uniform_argumentList hc ?_)) fun list hlist => ?_
    · simp +contextual [Item.valueContents]
    refine uniform_draftBind (uniform_lift (uniform_members hc rfl ?_)) fun members hmembers => ?_
    · simp +contextual [Item.valueContents, Members.items]
    have hnew : Flow p fun f => "new " ++ type f ++ "(" :=
      ((Passage.of_fixed htype).prepend (by decide)).concat (by decide)
    exact uniform_draftPure
      (((hnew.append hlist).concat (c := ") ") (by decide)).close (.block hmembers)).group.flow

/-! Comments. -/

theorem uniform_renderJavadoc {j : Javadoc} (hc : Answered p c ⟨.javadoc j, place⟩) :
    Uniform c (Perhaps (Group p)) fun f => renderJavadoc f.1 ⟨.javadoc j, place⟩ j := by
  unfold renderJavadoc
  split
  · exact uniform_none
  · have htags : Uniform c (Each (Fixed fun _ => True)) fun _ =>
        texts ((Node.mk (.javadoc j) place).parts .tags (j.tags.map .javadocTag)) :=
      uniform_parts hc (by simp +contextual) fun _ _ ht => ht
    refine uniform_bind htags fun tags htags => uniform_pure (.inr ⟨_, ?_, rfl⟩)
    obtain ⟨tags, -, rfl⟩ := htags.fixed
    refine Passage.lines_concat (Each.of_forall fun line hline => .line ?_)
      (.line (by decide) (by decide))
    simp only [List.mem_append, List.mem_singleton, List.mem_flatMap] at hline
    rcases hline with ((rfl | hline) | hline) | ⟨tag, -, hline⟩
    · decide
    · exact oneLine_of_mem_commentLines hline
    · split at hline
      · rw [List.mem_singleton.1 hline]
        decide
      · exact nomatch hline
    · exact oneLine_of_mem_commentLines hline

end

/-- What a script gives for a node that is no file varies with the format as its item does. -/
theorem uniform_script {p : Prop} {c : RegularFormat → Children} {stack : Stack} {n : Node}
    (hc : Answered p c n) (hfile : n.kind ≠ .file)
    (hstrings : ∀ text ∈ n.item.strings, OneLine text) (hcode : p → n.item.Dense)
    (hstack : ∀ m ∈ stack.nodes, ∀ text ∈ m.item.strings, OneLine text) :
    Uniform c (Perhaps (Varies p (stack.top?.map Node.kind) n.item))
      fun f => script ⟨f.1, stack.push n⟩ n := by
  obtain ⟨item, place⟩ := n
  cases item with
  | file => exact absurd rfl hfile
  | classDecl d => exact uniform_renderClass _ hc (hstrings d.name (by simp))
  | interfaceDecl d => exact uniform_some (uniform_renderInterface _ hc (hstrings d.name (by simp)))
  | enumDecl d => exact uniform_some (uniform_renderEnum _ hc (hstrings d.name (by simp)))
  | annotationDecl d =>
    exact uniform_some (uniform_renderAnnotationDecl _ hc (hstrings d.name (by simp)))
  | enumConstant x =>
    exact uniform_some (uniform_renderEnumConstant _ hc (hstrings x.name (by simp)))
  | method m => exact uniform_renderMethod _ hc (hstrings m.name (by simp)) hcode
  | constructor x =>
    exact uniform_renderConstructor _ hc (fun name hname => oneLine_enclosing hstack hname) hcode
  | field x =>
    have hfield := uniform_renderField (stack.push ⟨.field x, place⟩) hc (hstrings x.name (by simp))
    rwa [Stack.parent?_push] at hfield
  | generic g =>
    exact uniform_some (uniform_renderGeneric hc fun name hname =>
      hstrings name (by simpa using hname))
  | importDecl x =>
    exact uniform_renderImport (hstrings x.type.name (by simp)) fun member hmember =>
      hstrings member (by simp [Option.mem_def.1 hmember])
  | javadoc j =>
    simp only [script_javadoc]
    exact uniform_renderJavadoc hc
  | javadocTag t => exact uniform_pure (.inr ⟨_, ⟨renderJavadocTag t, trivial, rfl⟩, rfl⟩)
  | annotationUse u =>
    exact uniform_renderAnnotationUse hc fun v hv => hstrings v.name (List.mem_map_of_mem hv)
  | initializer i =>
    have hstatic : OneLine (if i.isStatic then "static " else "") := by split <;> decide
    have hblock := (Passage.line hstatic).close (ending_codeBlock hcode)
    exact uniform_pure (.inr ⟨_, hblock.group, rfl⟩)
  | type t =>
    simp only [script_type]
    exact uniform_renderType hc (hstrings t.name (by simp))
  | value v =>
    simp only [script_value]
    exact uniform_renderValue hc hstrings
  | document | declaration | tag | tagAttribute | text => exact uniform_none

theorem uniform_first {p : Prop} (remaining : Nat) {stack : Stack} {n : Node}
    (hfile : n.kind ≠ .file) (h : n.item.OneLine) (hcode : p → n.item.Throughout Item.Dense)
    (hstack : ∀ m ∈ stack.nodes, ∀ text ∈ m.item.strings, OneLine text) :
    Uniform (fun f => (dispatcher f.1).children remaining stack)
      (Perhaps (Varies p (stack.top?.map Node.kind) n.item)) fun _ => text? n := by
  induction remaining generalizing stack n with
  | zero => exact fun d hd => ⟨fun _ => none, d, .inl rfl, hd, fun _ => rfl⟩
  | succ remaining ih =>
    have hanswered : Answered p (fun f => below f.1 remaining stack n) n := by
      intro m hm
      refine ih (Item.ne_file_of_holds hm) (h.holds hm) (fun hp => (hcode hp).holds hm)
        fun k hk => ?_
      rcases List.mem_cons.1 hk with rfl | hk
      · exact h.own
      · exact hstack k hk
    have hscript := uniform_script hanswered hfile h.own (fun hp => (hcode hp).own) hstack
    intro d hd
    obtain ⟨t, e, ht, he, hrun⟩ := hscript d hd
    refine ⟨t, e, ht, he, fun f => ?_⟩
    rw [run_text?, text_first, dependencies_first, hrun f]

end Scribe.Java
