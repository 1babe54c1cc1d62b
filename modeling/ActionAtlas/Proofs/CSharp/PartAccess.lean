import ActionAtlas.Proofs.CSharp.Records
import ActionAtlas.Proofs.Names.PartOrder
import ActionAtlas.Proofs.Names.Resolution

/-!
How accessible a type is that stands in one of several parts of another. The parts of a type are
joined, so one of them can make it public; but a declaration is judged before that, by those parts
alone that it stands in.
-/

namespace ActionAtlas.CSharp

open Names (IsFirst assemble declared declaredAs)

/-! ### Places -/

/-- A declaration of a program, with the file that it is in. -/
structure Place where
  unit : List Member
  site : Site

namespace Place

variable {place other : Place}

def scope (place : Place) : Source.Scope :=
  scopeAt place.unit place.site.around

def modifiers (place : Place) : List String :=
  place.site.head.modifiers

def fullName (place : Place) : String :=
  qualify place.scope.namespaceName (Text.dotted (place.scope.enclosing ++ [place.site.head.name]))

/-- All types around are public, each by the part of it that the place is in. -/
def IsOpen (place : Place) : Prop :=
  ∀ head ∈ typeHeads place.site.around, "public" ∈ head.modifiers

instance (place : Place) : Decidable place.IsOpen :=
  inferInstanceAs (Decidable (∀ head ∈ typeHeads place.site.around, "public" ∈ head.modifiers))

/-- What the declaration says by itself. -/
def stated (place : Place) : Accessibility :=
  Accessibility.ofModifiers (if place.scope.enclosing.isEmpty then .internal else .private)
    place.modifiers

/-- What the declaration says in its place. -/
def accessibility (place : Place) : Accessibility :=
  if place.stated = .public ∧ ¬place.IsOpen then .internal else place.stated

/-- The record of a file for this declaration. -/
def Records (place : Place) (type : Source.TypeDeclaration) : Prop :=
  IsRecord place.unit place.site.around place.site.head place.site.body type

/-- The same declaration, in whichever parts of the types around it. -/
structure SameDeclaration (place other : Place) : Prop where
  enclosing_eq : other.scope.enclosing = place.scope.enclosing
  modifiers_eq : other.modifiers = place.modifiers

theorem stated_eq_public_iff : place.stated = .public ↔ "public" ∈ place.modifiers := by
  refine ofModifiers_eq_public_iff ?_ place.modifiers
  split <;> nofun

theorem accessibility_of_not_public (unstated : "public" ∉ place.modifiers) :
    place.accessibility = place.stated := by
  rw [accessibility, if_neg fun here => unstated (stated_eq_public_iff.mp here.1)]

theorem accessibility_of_public (stated : "public" ∈ place.modifiers) :
    place.accessibility = if place.IsOpen then .public else .internal := by
  have isPublic := stated_eq_public_iff.mpr stated
  by_cases isOpen : place.IsOpen
  · simp [accessibility, isPublic, isOpen]
  · simp [accessibility, isPublic, isOpen]

theorem accessibility_eq_public_iff :
    place.accessibility = .public ↔ "public" ∈ place.modifiers ∧ place.IsOpen := by
  by_cases stated : "public" ∈ place.modifiers
  · simp [accessibility_of_public stated, stated]
  · simp [accessibility_of_not_public stated, stated_eq_public_iff, stated]

theorem SameDeclaration.stated_eq (same : SameDeclaration place other) :
    other.stated = place.stated := by
  rw [stated, same.enclosing_eq, same.modifiers_eq, stated]

theorem SameDeclaration.accessibility_cases (same : SameDeclaration place other) :
    other.accessibility = place.accessibility ∨
      place.accessibility = .public ∧ other.accessibility = .internal ∨
      place.accessibility = .internal ∧ other.accessibility = .public := by
  by_cases stated : "public" ∈ place.modifiers
  · have otherStated : "public" ∈ other.modifiers := by rwa [same.modifiers_eq]
    rw [accessibility_of_public stated, accessibility_of_public otherStated]
    by_cases isOpen : place.IsOpen <;> by_cases otherOpen : other.IsOpen <;>
      simp [isOpen, otherOpen]
  · have otherUnstated : "public" ∉ other.modifiers := by rwa [same.modifiers_eq]
    rw [accessibility_of_not_public stated, accessibility_of_not_public otherUnstated]
    exact .inl same.stated_eq

/-- The declaration says nothing about its accessibility. -/
def IsBare (place : Place) : Prop :=
  ∀ modifier ∈ Source.TypeDeclaration.accessModifiers, modifier ∉ place.modifiers

instance (place : Place) : Decidable place.IsBare :=
  inferInstanceAs (Decidable (∀ modifier ∈ Source.TypeDeclaration.accessModifiers,
    modifier ∉ place.modifiers))

theorem isOpen_of_outermost (outermost : place.scope.enclosing = []) : place.IsOpen := by
  have heads : typeHeads place.site.around = [] := List.map_eq_nil_iff.mp outermost
  simp [IsOpen, heads]

theorem IsBare.accessibility_eq (bare : place.IsBare) (outermost : place.scope.enclosing = []) :
    place.accessibility = .internal := by
  rw [accessibility_of_not_public (bare "public" (by decide)), stated,
    Source.TypeDeclaration.ofModifiers_of_bare _ bare, outermost, List.isEmpty_nil, if_pos rfl]

section

variable {type : Source.TypeDeclaration}

theorem Records.fullName_eq (records : place.Records type) : type.fullName = place.fullName := by
  rw [Source.TypeDeclaration.fullName, Source.TypeDeclaration.nestedName, records.scope,
    records.name, fullName, scope]

theorem Records.enclosingPublic_iff (records : place.Records type)
    (stated : "public" ∈ place.modifiers) : type.enclosingPublic = true ↔ place.IsOpen := by
  have isPublic := records.accessibility
  rw [CSharp.accessibility_eq_public_iff, records.modifiers, List.forall_mem_cons] at isPublic
  exact (and_congr_right_iff.mp isPublic) stated

theorem Records.accessibility_eq (records : place.Records type) :
    type.accessibility = place.accessibility := by
  have stated : Accessibility.ofModifiers
      (if type.scope.enclosing.isEmpty then .internal else .private) type.modifiers =
        place.stated := by
    rw [records.scope, records.modifiers, Place.stated, scope, modifiers]
  rw [Source.TypeDeclaration.accessibility, stated, accessibility]
  by_cases isPublic : place.stated = .public
  · have around := records.enclosingPublic_iff (stated_eq_public_iff.mp isPublic)
    simp [isPublic, ← around]
  · simp [isPublic]

end

end Place

def placesIn (unit : List Member) : List Place :=
  (Member.sitesIn 0 unit).map (Place.mk unit)

/-- All declarations of a full name, in the order of the files. -/
def placesNamed (units : List (List Member)) (name : String) : List Place :=
  (units.flatMap placesIn).filter fun place => place.fullName == name

/-! ### The first that is not internal -/

def firstDecided (given : List Accessibility) : Accessibility :=
  (given.find? (· ≠ .internal)).getD .internal

/-- One of these declarations decides, and it is public in its place. -/
def IsShown (places : List Place) : Prop :=
  ∃ place, IsFirst (fun place => place.accessibility ≠ .internal) places place ∧
    "public" ∈ place.modifiers ∧ place.IsOpen

section

variable {places others : List Place}

theorem forall_public_of_same (same : List.Forall₂ Place.SameDeclaration places others)
    (stated : ∀ place ∈ places, "public" ∈ place.modifiers) :
    ∀ other ∈ others, "public" ∈ other.modifiers := by
  induction same with
  | nil => exact stated
  | cons here _ ih =>
      rw [List.forall_mem_cons] at stated ⊢
      exact ⟨by rw [here.modifiers_eq]; exact stated.1, ih stated.2⟩

theorem firstDecided_eq_public_iff :
    firstDecided (places.map Place.accessibility) = .public ↔ IsShown places := by
  have first (place : Place) :
      IsFirst (fun place => place.accessibility ≠ .internal) places place ↔
        places.find? (fun place => place.accessibility ≠ .internal) = some place := by
    rw [Names.find?_eq_some_iff_isFirst]
    simp only [decide_eq_true_eq]
  simp only [IsShown, first, ← Place.accessibility_eq_public_iff]
  rw [firstDecided, List.find?_map, Function.comp_def]
  cases places.find? (fun place => place.accessibility ≠ .internal) with
  | none => simp
  | some place => simp

theorem firstDecided_cons (first : Accessibility) (later : List Accessibility) :
    firstDecided (first :: later) = if first = .internal then firstDecided later else first := by
  by_cases internal : first = .internal
  · simp [firstDecided, internal]
  · simp [firstDecided, internal]

/-- Declarations in other places. What these change can only be whether the type is public. -/
theorem firstDecided_eq_iff (same : List.Forall₂ Place.SameDeclaration places others) :
    firstDecided (places.map Place.accessibility) = firstDecided (others.map Place.accessibility) ↔
      (IsShown places ↔ IsShown others) := by
  rw [← firstDecided_eq_public_iff, ← firstDecided_eq_public_iff]
  refine ⟨fun equal => by rw [equal], fun shown => ?_⟩
  induction same with
  | nil => rfl
  | @cons place other places others here _ ih =>
      simp only [List.map_cons, firstDecided_cons] at shown ⊢
      rcases here.accessibility_cases with equal | ⟨isPublic, hidden⟩ | ⟨hidden, isPublic⟩
      · rw [equal] at shown ⊢
        by_cases internal : place.accessibility = .internal
        · rw [if_pos internal, if_pos internal] at shown ⊢
          exact ih shown
        · rw [if_neg internal, if_neg internal]
      -- A declaration that is public decides at once, so the others have to be public as well.
      · simp only [isPublic, hidden, reduceCtorEq, if_true, if_false, true_iff] at shown ⊢
        exact shown.symm
      · simp only [isPublic, hidden, reduceCtorEq, if_true, if_false, iff_true] at shown ⊢
        exact shown

theorem isShown_of_parts (outermost : ∀ place ∈ places, place.scope.enclosing = [])
    (parts : ∀ place ∈ places, "public" ∈ place.modifiers ∨ place.IsBare)
    (somePublic : ∃ place ∈ places, "public" ∈ place.modifiers) : IsShown places := by
  rw [← firstDecided_eq_public_iff]
  induction places with
  | nil => simp at somePublic
  | cons place others ih =>
      rw [List.forall_mem_cons] at outermost parts
      rw [List.map_cons, firstDecided_cons]
      by_cases stated : "public" ∈ place.modifiers
      · have isPublic : place.accessibility = .public :=
          Place.accessibility_eq_public_iff.mpr ⟨stated, Place.isOpen_of_outermost outermost.1⟩
        rw [isPublic, if_neg nofun]
      · have bare := parts.1.resolve_left stated
        rw [if_pos (bare.accessibility_eq outermost.1)]
        rw [List.exists_mem_cons_iff] at somePublic
        exact ih outermost.2 parts.2 (somePublic.resolve_left stated)

theorem isShown_iff_exists_isOpen (stated : ∀ place ∈ places, "public" ∈ place.modifiers) :
    IsShown places ↔ ∃ place ∈ places, place.IsOpen := by
  rw [← firstDecided_eq_public_iff]
  induction places with
  | nil => simp [firstDecided]
  | cons place others ih =>
      rw [List.forall_mem_cons] at stated
      rw [List.map_cons, firstDecided_cons, Place.accessibility_of_public stated.1,
        List.exists_mem_cons_iff, ← ih stated.2]
      by_cases isOpen : place.IsOpen
      · simp [isOpen]
      · simp [isOpen]

end

/-! ### Types in parts -/

section

variable {units others : List (List Member)} {name : String}

theorem forall₂_placesIn (unit : List Member) :
    List.Forall₂ Place.Records (placesIn unit) (collect unit).types := by
  rw [placesIn, List.forall₂_map_left_iff]
  exact records_sitesIn unit (Surroundings.reflect_outermost unit) 0

theorem forall₂_placesNamed (units : List (List Member)) (name : String) :
    List.Forall₂ Place.Records (placesNamed units name) (declaredAs (units.map collect) name) := by
  rw [placesNamed, declaredAs]
  refine List.rel_filter ?_ ?_
  · intro place type records
    simp only [Place.Records.fullName_eq records]
  · rw [declared, List.flatMap_map]
    induction units with
    | nil => exact .nil
    | cons unit more ih => exact List.rel_append (forall₂_placesIn unit) ih

theorem map_accessibility_declaredAs (units : List (List Member)) (name : String) :
    (declaredAs (units.map collect) name).map Source.TypeDeclaration.accessibility =
      (placesNamed units name).map Place.accessibility := by
  rw [← List.forall₂_eq_eq_eq, List.forall₂_map_left_iff, List.forall₂_map_right_iff]
  exact (forall₂_placesNamed units name).flip.imp fun _ _ => Place.Records.accessibility_eq

theorem accessibility_of_get? {type : TypeDeclaration}
    (found : (assemble (units.map collect)).get? name = some type) :
    type.accessibility = firstDecided ((placesNamed units name).map Place.accessibility) := by
  obtain ⟨first, later, parts, joins⟩ := Names.exists_joins_of_get? found
  rw [joins.accessibility_eq, ← parts, ← map_accessibility_declaredAs, Names.resolvedParts,
    List.map_map]
  rfl

theorem exists_get?_of_places (declares : placesNamed units name ≠ []) :
    ∃ type, (assemble (units.map collect)).get? name = some type := by
  refine Names.exists_get?_of_declares (Names.declares_iff_resolvedParts.mpr fun nothing => ?_)
  rw [Names.resolvedParts, List.map_eq_nil_iff] at nothing
  have recorded := forall₂_placesNamed units name
  rw [nothing, List.forall₂_nil_right_iff] at recorded
  exact declares recorded

/-- A type of a namespace is public if one of its parts is and no other part says anything else. -/
theorem accessibility_of_parts (outermost : ∀ place ∈ placesNamed units name,
      place.scope.enclosing = [])
    (parts : ∀ place ∈ placesNamed units name, "public" ∈ place.modifiers ∨ place.IsBare)
    (somePublic : ∃ place ∈ placesNamed units name, "public" ∈ place.modifiers) :
    ∃ type, (assemble (units.map collect)).get? name = some type ∧
      type.accessibility = .public := by
  have ⟨_, inside, _⟩ := somePublic
  obtain ⟨type, found⟩ := exists_get?_of_places (List.ne_nil_of_mem inside)
  refine ⟨type, found, ?_⟩
  rw [accessibility_of_get? found, firstDecided_eq_public_iff]
  exact isShown_of_parts outermost parts somePublic

/-- The same declarations of a type in other parts of the types around it. The type is equally
accessible exactly if in both cases or in neither the declaration that decides is public with all
parts around it. If all its declarations say that it is public, one of them has to stand in parts
that say so as well. -/
theorem accessibility_eq_iff_of_sameDeclaration (declares : placesNamed units name ≠ [])
    (same : List.Forall₂ Place.SameDeclaration (placesNamed units name)
      (placesNamed others name)) :
    ∃ type other, (assemble (units.map collect)).get? name = some type ∧
      (assemble (others.map collect)).get? name = some other ∧
      (type.accessibility = other.accessibility ↔
        (IsShown (placesNamed units name) ↔ IsShown (placesNamed others name))) ∧
      ((∀ place ∈ placesNamed units name, "public" ∈ place.modifiers) →
        (type.accessibility = .public ↔ ∃ place ∈ placesNamed units name, place.IsOpen) ∧
        (other.accessibility = .public ↔ ∃ place ∈ placesNamed others name, place.IsOpen)) := by
  have otherDeclares : placesNamed others name ≠ [] := by
    intro nothing
    rw [nothing, List.forall₂_nil_right_iff] at same
    exact declares same
  obtain ⟨type, found⟩ := exists_get?_of_places declares
  obtain ⟨other, otherFound⟩ := exists_get?_of_places otherDeclares
  refine ⟨type, other, found, otherFound, ?_⟩
  rw [accessibility_of_get? found, accessibility_of_get? otherFound]
  refine ⟨firstDecided_eq_iff same, fun stated => ⟨?_, ?_⟩⟩
  · rw [firstDecided_eq_public_iff, isShown_iff_exists_isOpen stated]
  · rw [firstDecided_eq_public_iff, isShown_iff_exists_isOpen (forall_public_of_same same stated)]

def shopHead (modifiers : List String) : TypeHead :=
  ⟨"Shop", .class, modifiers, false, [], []⟩

def cartHead : TypeHead := ⟨"Cart", .class, ["public"], false, [], []⟩

/-- A class in two parts, with these bodies. Only the first says that it is public. -/
def shopParts (body otherBody : List Member) : List (List Member) :=
  [[.namespaceBlock "Web" [.type (shopHead ["public", "partial"]) body]],
    [.namespaceBlock "Web" [.type (shopHead ["partial"]) otherBody]]]

def cartMember : Member := .type cartHead []

/-- What decides about a declaration. -/
def Place.summary (place : Place) : List String × List String × Bool :=
  (place.scope.enclosing, place.modifiers, place.IsOpen)

/-- Both programs make the same class public, but a class inside it is so in the first only. -/
theorem accessibility_eq_iff_of_sameDeclaration_cart :
    (∀ units ∈ [shopParts [cartMember] [], shopParts [] [cartMember]],
      ∃ shop, (assemble (units.map collect)).get? "Web.Shop" = some shop ∧
        shop.accessibility = .public) ∧
    ∃ cart other,
      (assemble ((shopParts [cartMember] []).map collect)).get? "Web.Shop.Cart" = some cart ∧
      (assemble ((shopParts [] [cartMember]).map collect)).get? "Web.Shop.Cart" = some other ∧
      cart.accessibility = .public ∧ other.accessibility ≠ .public := by
  constructor
  · intro units one
    apply accessibility_of_parts
    all_goals
      revert units
      decide +kernel
  · have inside : (placesNamed (shopParts [cartMember] []) "Web.Shop.Cart").map Place.summary =
        [(["Shop"], ["public"], true)] := by decide +kernel
    have apart : (placesNamed (shopParts [] [cartMember]) "Web.Shop.Cart").map Place.summary =
        [(["Shop"], ["public"], false)] := by decide +kernel
    obtain ⟨place, here, summary⟩ := List.map_eq_singleton_iff.mp inside
    obtain ⟨elsewhere, there, otherSummary⟩ := List.map_eq_singleton_iff.mp apart
    simp only [Place.summary, Prod.mk.injEq, decide_eq_true_eq, decide_eq_false_iff_not]
      at summary otherSummary
    obtain ⟨enclosing, modifiers, isOpen⟩ := summary
    obtain ⟨otherEnclosing, otherModifiers, closed⟩ := otherSummary
    have declares : placesNamed (shopParts [cartMember] []) "Web.Shop.Cart" ≠ [] := by simp [here]
    have same : List.Forall₂ Place.SameDeclaration
        (placesNamed (shopParts [cartMember] []) "Web.Shop.Cart")
        (placesNamed (shopParts [] [cartMember]) "Web.Shop.Cart") := by
      rw [here, there]
      exact .cons ⟨by rw [otherEnclosing, enclosing], by rw [otherModifiers, modifiers]⟩ .nil
    obtain ⟨cart, other, found, otherFound, -, byPlace⟩ :=
      accessibility_eq_iff_of_sameDeclaration declares same
    obtain ⟨cart_iff, other_iff⟩ := byPlace (by simp [here, modifiers])
    refine ⟨cart, other, found, otherFound, cart_iff.mpr ⟨place, by simp [here], isOpen⟩, ?_⟩
    rw [Ne, other_iff]
    simpa [there] using closed

end

end ActionAtlas.CSharp
