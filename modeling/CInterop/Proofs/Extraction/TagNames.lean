import CInterop.Proofs.Extraction.Ambiguity
import CInterop.Proofs.Extraction.Opening
import CInterop.Proofs.Extraction.Survival

/-!
# The names of tags in a run

A run first names the anonymous tags that typedefs give names to. From then on every decision about the
name of a tag is one of those that the source allows, whatever is resolved in whatever order. So where
the source tells tags apart, no two of them are assigned one name, none has the name of something
ordinary, and every record and enumeration of the tree is that of the only tag with its name.
-/

namespace CInterop.Extraction

open FrontEnd Header

/-! ## Decisions -/

/-- What was decided about names of tags is what the source allows. -/
structure Decided (c : Setting) (s : State) : Prop where
  names : ∀ spot name, (spot, name) ∈ s.tagNames →
    ∃ e, IsTag c e ∧ isAnonymous e = true ∧ e.spot = spot ∧ MayBeCalled c e name
  renames : ∀ keyword name new, ((keyword, name), new) ∈ s.tagRenames →
    name ∈ c.ordinaryNames ∧ new = c.newTagName keyword name

/-- The tags that these typedefs give names to have names. -/
def HasNamed (c : Setting) (ds : List Entity) (s : State) : Prop :=
  ∀ d ∈ ds, ∀ e, NamesByTypedef c d e → (s.tagNames.lookup e.spot).isSome = true

section

variable {c : Setting} {s s' : State} {e : Entity} {name : String}

/-- What a tag is called is something that it may be called. -/
theorem Called.mayBeCalled (hc : TellsApart c) (hs : Decided c s) (htag : IsTag c e)
    (h : Called c s e name) : MayBeCalled c e name := by
  cases h with
  | noted hmem =>
    obtain ⟨e', htag', hanonymous, hspot, hname⟩ := hs.names _ _ hmem
    obtain rfl := hc.spots _ htag'.mem _ htag.mem hanonymous hspot
    exact hname
  | own hnamed hfree => exact .spelled (.own htag hnamed hfree)
  | renamed hnamed hmem =>
    obtain ⟨hordinary, rfl⟩ := hs.renames _ _ _ hmem
    exact .renamed ⟨htag, hnamed, hordinary⟩

/-- A suggestion for a tag that no typedef has named is something that it may be called. -/
theorem Suggests.mayBeCalled (hc : TellsApart c) (hs : Decided c s)
    (hnamed : HasNamed c c.translation.topLevel s) (htag : IsTag c e) (hanonymous : isAnonymous e = true)
    (hlookup : s.tagNames.lookup e.spot = none) (h : Suggests c s e name) : MayBeCalled c e name := by
  cases h with
  | typedef hd hkind hunderlying => exact .spelled (.typedef ⟨hd, hkind, hunderlying, hanonymous⟩)
  | field howner hcalled hf htype =>
    exact .field ⟨howner, hf, htype, hanonymous⟩ (hcalled.mayBeCalled hc hs howner)
  | place =>
    refine .place ⟨htag, hanonymous, fun d hd => ?_⟩
    have hsome := hnamed d hd.top e hd
    rw [hlookup] at hsome
    cases hsome

theorem isSome_lookup_cons {spot spot' : String × Int × Int}
    {names : List ((String × Int × Int) × String)} (h : (names.lookup spot).isSome = true) :
    (((spot', name) :: names).lookup spot).isSome = true := by
  rw [List.lookup_cons]
  split
  · rfl
  · exact h

/-- A tag that was named stays named. -/
theorem Change.isSome_lookup (h : Change c s s') {spot : String × Int × Int}
    (hsome : (s.tagNames.lookup spot).isSome = true) : (s'.tagNames.lookup spot).isSome = true := by
  cases h with
  | named => exact isSome_lookup_cons hsome
  | _ => exact hsome

theorem Decided.change (hc : TellsApart c) (h : Change c s s')
    (hnamed : HasNamed c c.translation.topLevel s) (hs : Decided c s) : Decided c s' := by
  cases h with
  | @named e name htag hanonymous hlookup hsuggests =>
    refine ⟨fun spot other hmem => ?_, hs.renames⟩
    rcases List.mem_cons.mp hmem with heq | hold
    · obtain ⟨rfl, rfl⟩ := Prod.mk.inj heq
      exact ⟨e, htag, hanonymous, rfl, hsuggests.mayBeCalled hc hs hnamed htag hanonymous hlookup⟩
    · exact hs.names _ _ hold
  | @renamed e _ _ hordinary =>
    refine ⟨hs.names, fun keyword other new hmem => ?_⟩
    rcases List.mem_cons.mp hmem with heq | hold
    · cases heq
      exact ⟨hordinary, rfl⟩
    · exact hs.renames _ _ _ hold
  | _ => exact ⟨hs.names, hs.renames⟩

/-- Whatever a run does after the typedefs have named their tags, it decides what the source allows. -/
theorem Decided.course (hc : TellsApart c) (h : Course c s s')
    (hnamed : HasNamed c c.translation.topLevel s) (hs : Decided c s) :
    Decided c s' ∧ HasNamed c c.translation.topLevel s' := by
  induction h with
  | refl => exact ⟨hs, hnamed⟩
  | tail _ hchange ih =>
    exact ⟨ih.1.change hc hchange ih.2,
      fun d hd e hnames => hchange.isSome_lookup (ih.2 d hd e hnames)⟩

end

namespace Build

variable {c : Setting} {s s' : State} {e : Entity} {t : TypeRef}

/-! ## Typedefs name their tags -/

/-- The name that a typedef gives to its tag. -/
def nameTagByTypedef (c : Setting) (d : Entity) : Build Unit :=
  match d.kind with
  | .typedef =>
    match c.translation.tag? d.underlying with
    | some tag => if isAnonymous tag then nameTag tag d.spelling else pure ()
    | none => pure ()
  | _ => pure ()

theorem nameTagByTypedef_eq {d : Entity} (h : NamesByTypedef c d e) :
    nameTagByTypedef c d = nameTag e d.spelling := by
  unfold nameTagByTypedef
  rw [h.kind, h.tag]
  exact if_pos h.anonymous

theorem nameTagByTypedef_eq_pure {d : Entity} (hd : d ∈ c.translation.topLevel)
    (h : ∀ e, ¬ NamesByTypedef c d e) : nameTagByTypedef c d = pure () := by
  unfold nameTagByTypedef
  split
  · split
    · exact if_neg fun hanonymous => h _ ⟨hd, ‹_›, ‹_›, hanonymous⟩
    · rfl
  · rfl

/-- A typedef names its tag unless that is named already. -/
theorem nameTagByTypedef_eq_ok {d : Entity} (hd : d ∈ c.translation.topLevel) (hs : Decided c s)
    (h : nameTagByTypedef c d s = .ok () s') :
    Decided c s' ∧ HasNamed c [d] s' ∧
      ∀ spot, (s.tagNames.lookup spot).isSome = true → (s'.tagNames.lookup spot).isSome = true := by
  by_cases hnames : ∃ e, NamesByTypedef c d e
  · obtain ⟨e, hnames⟩ := hnames
    have honly {d' e' : Entity} (hd' : d' ∈ [d]) (hnames' : NamesByTypedef c d' e') : e' = e := by
      rw [List.mem_singleton] at hd'
      subst hd'
      exact Option.some.inj (hnames'.tag.symm.trans hnames.tag)
    rw [nameTagByTypedef_eq hnames] at h
    obtain rfl := (EStateM.Result.ok.inj h).2
    dsimp only
    split
    · rename_i hsome
      exact ⟨hs, fun d' hd' e' hnames' => honly hd' hnames' ▸ hsome, fun _ hsome => hsome⟩
    · refine ⟨⟨fun spot other hmem => ?_, hs.renames⟩, fun d' hd' e' hnames' => ?_,
        fun _ hsome => isSome_lookup_cons hsome⟩
      · rcases List.mem_cons.mp hmem with heq | hold
        · obtain ⟨rfl, rfl⟩ := Prod.mk.inj heq
          exact ⟨e, hnames.isTag, hnames.anonymous, rfl, .spelled (.typedef hnames)⟩
        · exact hs.names _ _ hold
      · rw [honly hd' hnames', List.lookup_cons_self]
        rfl
  · rw [not_exists] at hnames
    rw [nameTagByTypedef_eq_pure hd hnames] at h
    obtain rfl := (EStateM.Result.ok.inj h).2
    refine ⟨hs, fun d' hd' e' hnames' => ?_, fun _ hsome => hsome⟩
    rw [List.mem_singleton] at hd'
    exact absurd (hd' ▸ hnames') (hnames e')

theorem forM_nameTagByTypedef_eq_ok {ds : List Entity} (hds : ds ⊆ c.translation.topLevel)
    (hs : Decided c s) (h : ds.forM (nameTagByTypedef c) s = .ok () s') :
    Decided c s' ∧ HasNamed c ds s' ∧
      ∀ spot, (s.tagNames.lookup spot).isSome = true → (s'.tagNames.lookup spot).isSome = true := by
  induction ds generalizing s with
  | nil =>
    obtain rfl := (EStateM.Result.ok.inj h).2
    exact ⟨hs, fun d hd => absurd hd List.not_mem_nil, fun _ hsome => hsome⟩
  | cons d rest ih =>
    rw [List.cons_subset] at hds
    obtain ⟨_, s₁, hfirst, hrest⟩ := Steps.bind_eq_ok h
    obtain ⟨hs₁, hnamed₁, hkept₁⟩ := nameTagByTypedef_eq_ok hds.1 hs hfirst
    obtain ⟨hs', hnamed, hkept⟩ := ih hds.2 hs₁ hrest
    refine ⟨hs', fun d' hd' e hnames => ?_, fun spot hsome => hkept spot (hkept₁ spot hsome)⟩
    rcases List.mem_cons.mp hd' with rfl | hlater
    · exact hkept _ (hnamed₁ d' (List.mem_singleton_self _) e hnames)
    · exact hnamed d' hlater e hnames

/-- All typedefs together name all the tags that they give names to. -/
theorem nameTagsByTypedefs_eq_ok (hs : Decided c s) (h : nameTagsByTypedefs c s = .ok () s') :
    Decided c s' ∧ HasNamed c c.translation.topLevel s' := by
  obtain ⟨hs', hnamed, -⟩ := forM_nameTagByTypedef_eq_ok (List.Subset.refl _) hs h
  exact ⟨hs', hnamed⟩

/-! ## Resolving a tag gives its name -/

/-- The name that a type which names a tag is resolved to is one that the tag is called by. -/
theorem called_of_resolveWithin {steps : Nat} {name : String} (hs : Sound c s)
    (htag : c.translation.tag? t = some e) (h : resolveWithin c steps t s = .ok name s') :
    Course c s s' ∧ Called c s' e name := by
  have hcourse := ((names_resolveWithin c steps t s).result hs h).1
  refine ⟨hcourse, ?_⟩
  obtain ⟨t', below, left, resolved, hkind, rfl, hrule, rfl⟩ := rule_of_tag htag h
  have hbelow := names_resolveWithin c below
  unfold resolveStep at hrule
  have hcalled : Called c left (c.entity (c.translation.definitionOf (c.type t').declaration)) name := by
    rcases kind_of_tag? htag with hunwrap | hunwrap
    · rw [hkind.trans hunwrap] at hrule
      exact ((runs_record hbelow (hkind.trans hunwrap)).result hs hrule).2
    · rw [hkind.trans hunwrap] at hrule
      exact ((runs_enumeration hbelow (hkind.trans hunwrap)).result hs hrule).2
  have hsame : Tagged left { left with resolved } := ⟨List.Subset.refl _, List.Subset.refl _⟩
  exact hcalled.mono hsame

end Build

/-! ## Whole runs -/

/-- The tag is assigned the name somewhere between two states of a run: a type that names the tag is
resolved to it. -/
def Assigns (c : Setting) (start stop : State) (e : Entity) (name : String) : Prop :=
  ∃ steps t here left, c.translation.tag? t = some e ∧ Course c start here ∧
    Build.resolveWithin c steps t here = .ok name left ∧ Course c left stop

section

variable {options : Options} {directory : String} {isFile : Bool} {translation : Translation}
  {c : Setting}

theorem Assigns.mayBeCalled {start stop : State} {e : Entity} {name : String} (hc : TellsApart c)
    (hsound : Sound c start) (hs : Decided c start)
    (hnamed : HasNamed c c.translation.topLevel start) (h : Assigns c start stop e name) :
    MayBeCalled c e name := by
  obtain ⟨steps, t, here, left, htag, hhere, hresolve, -⟩ := h
  obtain ⟨hleft, hcalled⟩ := Build.called_of_resolveWithin (hsound.course hhere) htag hresolve
  exact hcalled.mayBeCalled hc (hs.course hc (hhere.trans hleft) hnamed).1 ⟨t, htag⟩

/-- The steps of a run that come to a tree. -/
structure Comes (c : Setting) (named visited s : State) : Prop where
  sound : Sound c named
  decided : Decided c named
  hasNamed : HasNamed c c.translation.topLevel named
  visits : c.translation.topLevel.forM (Build.visit c) named = .ok () visited
  settles : Course c visited s

theorem Comes.course {named visited s : State} (h : Comes c named visited s) : Course c named s :=
  ((Build.running_visits (List.Subset.refl _)).course h.sound h.visits).trans h.settles

/-- A tree is come to from the state in which typedefs have named their tags. -/
theorem comes_of_tree {s₀ s : State} {t : Declarations} (hopened : Opened c s₀)
    (htree : Build.tree c s₀ = .ok t s) :
    ∃ named visited, Build.nameTagsByTypedefs c s₀ = .ok () named ∧ Comes c named visited s := by
  obtain ⟨named, visited, hnames, hvisits, hsettles, -⟩ := Build.tree_eq_ok htree
  have hdecided : Decided c s₀ := by
    refine ⟨fun _ _ hmem => ?_, fun _ _ _ hmem => ?_⟩
    · rw [hopened.tagNames] at hmem
      cases hmem
    · rw [hopened.tagRenames] at hmem
      cases hmem
  obtain ⟨hdecided', hnamed⟩ := Build.nameTagsByTypedefs_eq_ok hdecided hnames
  have hstart := (Build.running_nameTagsByTypedefs (E := TreeStop c)).course hopened.sound hnames
  have hsound := hopened.sound.course hstart
  have hvisited := (Build.running_visits (List.Subset.refl _)).course hsound hvisits
  have hsettled := (Build.running_settleMacros c).course (hsound.course hvisited) hsettles
  exact ⟨named, visited, hnames, hsound, hdecided', hnamed, hvisits, hsettled⟩

/-- A tag that is visited is assigned a name, or it is reported which type cannot be resolved. -/
theorem Comes.assigns {named visited s : State} (h : Comes c named visited s) {e tag : Entity}
    (he : IsVisited c e) (hkind : e.kind.isRecord = true ∨ e.kind = .enumeration)
    (hnamed : isAnonymous e = false) (htag : c.translation.tag? e.type = some tag) :
    (∃ name, Assigns c named s tag name) ∨
      ∃ spelling, ⟨.unresolvedType spelling e.spelling, some (c.placeText e)⟩ ∈ s.diagnostics := by
  obtain ⟨before, after, htop⟩ := List.append_of_mem he.top
  obtain ⟨here, left, hbefore, hvisit, hafter⟩ := Build.visits_eq_ok htop h.visits
  have hbefore' : before ⊆ c.translation.topLevel := htop ▸ List.subset_append_left _ _
  have hafter' : after ⊆ c.translation.topLevel :=
    htop ▸ List.subset_append_of_subset_right _ (List.subset_cons_self _ _)
  have hhere := (Build.running_visits hbefore').course h.sound hbefore
  have hsound := h.sound.course hhere
  rw [Build.visitKind_of_visit he.file he.system he.ignored] at hvisit
  have hdeclaration : Build.declaration c e (Build.resolve c e.type) here = .ok () left := by
    rcases hkind with hrecord | henumeration
    · exact Build.declaration_of_visitKind hrecord hnamed hvisit
    · unfold Build.visitKind at hvisit
      rw [henumeration] at hvisit
      exact hvisit
  have hleft : Course c here left :=
    (Build.running_declaration ((Build.names_resolve c).running e.type)).course hsound hdeclaration
  have hrest : Course c left s :=
    ((Build.running_visits hafter').course (hsound.course hleft) hafter).trans h.settles
  unfold Build.declaration at hdeclaration
  cases hresult : Build.resolve c e.type here with
  | ok name after =>
    rw [hresult] at hdeclaration
    cases hdeclaration
    exact .inl ⟨name, _, e.type, here, left, htag, hhere, hresult, hrest⟩
  | error stop after =>
    rw [hresult] at hdeclaration
    cases stop with
    | failed => cases hdeclaration
    | unresolved spelling =>
      dsimp only at hdeclaration
      split at hdeclaration
      · cases hdeclaration
      · cases hdeclaration
        exact .inr ⟨spelling, hrest.later.diagnostics
          (List.mem_append_right _ (List.mem_singleton_self _))⟩

/-- How the names of tags are to be read in a run. -/
structure Unambiguous (c : Setting) (named s : State) (t : Declarations) : Prop where
  /-- A tag that is visited is assigned a name, or it is reported which type cannot be resolved. -/
  assigned : ∀ e tag, IsVisited c e → e.kind.isRecord = true ∨ e.kind = .enumeration →
    isAnonymous e = false → c.translation.tag? e.type = some tag →
    (∃ name, Assigns c named s tag name) ∨
      ∃ spelling, ⟨.unresolvedType spelling e.spelling, some (c.placeText e)⟩ ∈ s.diagnostics
  /-- Two tags are not assigned one name. -/
  tags : ∀ e e' name, Assigns c named s e name → Assigns c named s e' name → e = e'
  /-- Nothing ordinary has the name of a tag but a typedef of the tag. -/
  ordinary : ∀ e d, Assigns c named s e d.spelling → IsOrdinary c d →
    d.kind = .typedef ∧ c.translation.tag? d.underlying = some e
  /-- A record or an enumeration of the tree is that of the only tag with its name. -/
  nodes : ∀ node ∈ t.nodes, node.kind ∈ [Kind.record, .incomplete, .enumeration] →
    ∃ e, IsTag c e ∧ Describes c e node.body ∧ node.location = c.place? e ∧
      ∀ e', Assigns c named s e' node.name → e' = e

/-- Where the source tells tags apart, the names of tags are unambiguous. -/
theorem run_tagNames (hc : c = options.setting directory translation) (happart : TellsApart c)
    {t : Declarations} (hrun : (run options directory isFile translation).tree = .ok t) :
    ∃ s₀ named s, Opened c s₀ ∧ Build.nameTagsByTypedefs c s₀ = .ok () named ∧
      Build.tree c s₀ = .ok t s ∧
      (run options directory isFile translation).diagnostics = s.diagnostics ∧
      Unambiguous c named s t := by
  obtain ⟨s₀, s, hopened, htree, hresult⟩ := run_eq_ok hc hrun
  obtain ⟨named, visited, hnames, hcomes⟩ := comes_of_tree hopened htree
  have hassigns {e : Entity} {name : String} (h : Assigns c named s e name) : MayBeCalled c e name :=
    h.mayBeCalled happart hcomes.sound hcomes.decided hcomes.hasNamed
  refine ⟨s₀, named, s, hopened, hnames, htree, by rw [hresult]; rfl, ?_⟩
  refine ⟨fun e tag => hcomes.assigns, fun e e' name h h' => ?_, fun e d h hd => ?_,
    fun node hnode hkind => ?_⟩
  · exact happart.eq_of_mayBeCalled (hassigns h) (hassigns h') rfl
  · exact happart.typedef_of_mayBeCalled (hassigns h) hd rfl
  · cases hopened.stems htree node hnode with
    | @tag e _ _ htag hcalled hbody _ =>
      have hdecided := (hcomes.decided.course happart hcomes.course hcomes.hasNamed).1
      have hname := hcalled.mayBeCalled happart hdecided htag
      exact ⟨e, htag, hbody, rfl, fun e' h => happart.eq_of_mayBeCalled (hassigns h) hname rfl⟩
    | function _ _ hbody | global _ _ hbody =>
      rw [Node.kind, hbody] at hkind
      simp at hkind
    | _ => simp [Node.kind, Body.kind, Build.constantOf] at hkind

end

/-- A header with a tag that is renamed, as a function and a variable have its names, with one that is
not, and with anonymous ones that are named by a typedef, by fields, one within the other, and by a place.
Another file has a tag in the same line and column as one that a typedef names. -/
def harborHeader : Translation where
  types := #[
    { kind := .scalar .int, spelling := "int", size := 4, align := 4 },
    { kind := .record, spelling := "struct stat", size := 4, align := 4, declaration := ⟨some 0⟩
      fields := [⟨some 2⟩] },
    { kind := .record, spelling := "struct ship", size := 8, align := 4, declaration := ⟨some 1⟩
      fields := [⟨some 3⟩, ⟨some 4⟩] },
    { kind := .record, spelling := "struct ship::(unnamed)", size := 4, align := 4, declaration := ⟨some 5⟩
      fields := [⟨some 6⟩] },
    { kind := .record, spelling := "union ship::(unnamed)", size := 4, align := 4, declaration := ⟨some 7⟩
      fields := [⟨some 8⟩] },
    { kind := .record, spelling := "crew", size := 4, align := 4, declaration := ⟨some 9⟩
      fields := [⟨some 10⟩] },
    { kind := .record, spelling := "struct (unnamed)", size := 4, align := 4
      declaration := ⟨some 12⟩, fields := [⟨some 13⟩] },
    { kind := .prototype, spelling := "int (void)", result := ⟨some 0⟩ }]
  entities := #[
    { kind := .struct, spelling := "stat", file := some "/work/test.h", line := 1, column := 8
      type := ⟨some 1⟩, definition := ⟨some 0⟩ },
    { kind := .struct, spelling := "ship", file := some "/work/test.h", line := 2, column := 8
      type := ⟨some 2⟩, definition := ⟨some 1⟩ },
    { kind := .other ("FIELD_DECL"), spelling := "size", type := ⟨some 0⟩ },
    { kind := .other ("FIELD_DECL"), spelling := "age", type := ⟨some 0⟩ },
    { kind := .other ("FIELD_DECL"), spelling := "deck", type := ⟨some 3⟩ },
    { kind := .struct, file := some "/work/test.h", line := 2, column := 24, type := ⟨some 3⟩
      definition := ⟨some 5⟩, isAnonymous := true },
    { kind := .other ("FIELD_DECL"), spelling := "load", type := ⟨some 4⟩ },
    { kind := .union, file := some "/work/test.h", line := 2, column := 33, type := ⟨some 4⟩
      definition := ⟨some 7⟩, isAnonymous := true },
    { kind := .other ("FIELD_DECL"), spelling := "tons", type := ⟨some 0⟩ },
    { kind := .struct, file := some "/work/test.h", line := 3, column := 9, type := ⟨some 5⟩
      definition := ⟨some 9⟩, isAnonymous := true },
    { kind := .other ("FIELD_DECL"), spelling := "count", type := ⟨some 0⟩ },
    { kind := .typedef, spelling := "crew", file := some "/work/test.h", line := 3, column := 31
      underlying := ⟨some 5⟩ },
    { kind := .struct, file := some "/work/sea.h", line := 3, column := 9, type := ⟨some 6⟩
      definition := ⟨some 12⟩, isAnonymous := true },
    { kind := .other ("FIELD_DECL"), spelling := "depth", type := ⟨some 0⟩ },
    { kind := .global, spelling := "harbor", file := some "/work/sea.h", line := 3, column := 31
      type := ⟨some 6⟩ },
    { kind := .function, spelling := "stat", file := some "/work/test.h", line := 4, column := 5
      type := ⟨some 7⟩, result := ⟨some 0⟩ },
    { kind := .global, spelling := "struct_stat", file := some "/work/test.h", line := 5, column := 5
      type := ⟨some 0⟩ }]
  header := { top := [⟨some 12⟩, ⟨some 14⟩, ⟨some 0⟩, ⟨some 1⟩, ⟨some 9⟩, ⟨some 11⟩, ⟨some 15⟩,
    ⟨some 16⟩] }

/-- Reading that header. -/
def harborOptions : Options := { header := "/work/test.h", bitness? := some 64 }

/-- What that header depends on. -/
def harborSetting : Setting := harborOptions.setting "/work" harborHeader

/-- What its tags may be called. -/
def harborNames : List (Entity × String) :=
  [(0, "struct_stat_"), (1, "ship"), (5, "ship_deck_Struct"), (5, "Anonymous_Struct_2_24"),
    (7, "ship_deck_Struct_load_Union"), (7, "Anonymous_Struct_2_24_load_Union"),
    (7, "Anonymous_Union_2_33"), (9, "crew"), (12, "Anonymous_Struct_3_9")].map fun (n, name) =>
      (harborSetting.entity ⟨some n⟩, name)

theorem covers_harborNames : Covers harborSetting harborNames where
  own := by decide +kernel
  typedef := by decide +kernel
  renamed := by decide +kernel
  field := by decide +kernel
  place := by decide +kernel

theorem tellsApart_harborSetting : TellsApart harborSetting where
  spots := by decide +kernel
  spellings := by decide +kernel
  typedefs := by decide +kernel
  ordinary := by decide +kernel
  renamed := by decide +kernel
  underscores := by
    -- only one tag is renamed
    have honly : ∀ e ∈ harborSetting.tags, IsRenamed harborSetting e →
        e = harborSetting.entity ⟨some 0⟩ := by decide +kernel
    intro e he e' he' hrenamed hrenamed' _ n hlonger
    rw [honly e he hrenamed, honly e' he' hrenamed'] at hlonger
    have hlength := congrArg List.length hlonger
    rw [List.length_append, List.length_replicate] at hlength
    omega
  fields := by decide +kernel
  joins := by
    have hall : ∀ p ∈ harborNames, ∀ f ∈ fieldsOf harborSetting p.1, ∀ e ∈ harborSetting.tags,
        NamesByField harborSetting p.1 f e → ∀ p' ∈ harborNames, ∀ f' ∈ fieldsOf harborSetting p'.1,
        ∀ e' ∈ harborSetting.tags, NamesByField harborSetting p'.1 f' e' →
        fieldName p.2 f e = fieldName p'.2 f' e' → f.spelling = f'.spelling := by decide +kernel
    intro _ _ _ _ _ _ _ _ h hname h' hname'
    exact hall _ (hname.mem covers_harborNames) _ h.field _ h.isTag.mem h _
      (hname'.mem covers_harborNames) _ h'.field _ h'.isTag.mem h'
  fieldNames := by
    have hall : ∀ p ∈ harborNames, ∀ f ∈ fieldsOf harborSetting p.1, ∀ e ∈ harborSetting.tags,
        NamesByField harborSetting p.1 f e → ¬ IsSpelled harborSetting (fieldName p.2 f e) ∧
          ∀ e' ∈ harborSetting.tags, IsRenamed harborSetting e' →
            harborSetting.newNameOf e' ≠ fieldName p.2 f e := by decide +kernel
    intro _ _ _ _ h hname
    exact hall _ (hname.mem covers_harborNames) _ h.field _ h.isTag.mem h
  places := by decide +kernel
  placeNames := by decide +kernel

/-- All six tags of that header have names of their own in its tree. -/
theorem run_tagNames_harborHeader :
    ∃ t s₀ named s, (run harborOptions "/work" true harborHeader).tree = .ok t ∧
      t.names = ["Anonymous_Struct_3_9", "int", "harbor", "struct_stat_", "ship", "ship_deck_Struct",
        "ship_deck_Struct_load_Union", "crew", "stat", "struct_stat"] ∧
      TellsApart harborSetting ∧ Opened harborSetting s₀ ∧
      Build.nameTagsByTypedefs harborSetting s₀ = .ok () named ∧
      Build.tree harborSetting s₀ = .ok t s ∧ Unambiguous harborSetting named s t ∧
      (∃ name, Assigns harborSetting named s (harborSetting.entity ⟨some 0⟩) name) ∧
      ∃ name, Assigns harborSetting named s (harborSetting.entity ⟨some 1⟩) name := by
  have hnames : (run harborOptions "/work" true harborHeader).tree.toOption.map (·.names) =
      some ["Anonymous_Struct_3_9", "int", "harbor", "struct_stat_", "ship", "ship_deck_Struct",
        "ship_deck_Struct_load_Union", "crew", "stat", "struct_stat"] := by decide +kernel
  have htold : (run harborOptions "/work" true harborHeader).diagnostics.map (·.cause) =
      [.nameCollision "struct stat" "struct_stat_"] := by decide +kernel
  cases hrun : (run harborOptions "/work" true harborHeader).tree with
  | error failure =>
    rw [hrun] at hnames
    cases hnames
  | ok t =>
    rw [hrun] at hnames
    obtain ⟨s₀, named, s, hopened, hnamed, htree, hdiagnostics, hunambiguous⟩ :=
      run_tagNames (c := harborSetting) rfl tellsApart_harborSetting hrun
    rw [hdiagnostics] at htold
    have hresolved {spelling declaration : String} {place : Option String} :
        ⟨.unresolvedType spelling declaration, place⟩ ∉ s.diagnostics := by
      intro hmem
      have hcause := List.mem_map_of_mem (f := (·.cause)) hmem
      rw [htold] at hcause
      cases List.mem_singleton.mp hcause
    have hassigned {n : Nat} (hvisited : IsVisited harborSetting (harborSetting.entity ⟨some n⟩))
        (hkind : (harborSetting.entity ⟨some n⟩).kind.isRecord = true)
        (hname : isAnonymous (harborSetting.entity ⟨some n⟩) = false)
        (htag : harborSetting.translation.tag? (harborSetting.entity ⟨some n⟩).type =
          some (harborSetting.entity ⟨some n⟩)) :
        ∃ name, Assigns harborSetting named s (harborSetting.entity ⟨some n⟩) name :=
      (hunambiguous.assigned _ _ hvisited (.inl hkind) hname htag).resolve_right
        fun ⟨_, hmem⟩ => hresolved hmem
    refine ⟨t, s₀, named, s, rfl, Option.some.inj hnames, tellsApart_harborSetting, hopened, hnamed,
      htree, hunambiguous, ?_, ?_⟩
    · exact hassigned ⟨by decide +kernel, by decide +kernel, by decide +kernel, by decide +kernel⟩
        (by decide +kernel) (by decide +kernel) (by decide +kernel)
    · exact hassigned ⟨by decide +kernel, by decide +kernel, by decide +kernel, by decide +kernel⟩
        (by decide +kernel) (by decide +kernel) (by decide +kernel)

end CInterop.Extraction
