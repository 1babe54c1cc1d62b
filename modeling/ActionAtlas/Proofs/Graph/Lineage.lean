import ActionAtlas.Graph.Lineage
import ActionAtlas.Proofs.Graph.Lookup

/-!
Lineages against the chains of bases that a graph declares. A chain goes on for ever where bases
form a cycle, while a lineage ends there; still every type of the chain is in the lineage, and those
before its end stand in it at their distance.
-/

namespace ActionAtlas.SymbolGraph

/-- The type that stands so many bases above another one. -/
def ancestor? (graph : SymbolGraph) (type : TypeDeclaration) : Nat → Option TypeDeclaration
  | 0 => some type
  | distance + 1 => (graph.ancestor? type distance).bind graph.baseOf?

variable {graph : SymbolGraph} {type : TypeDeclaration}

theorem ancestor?_succ (graph : SymbolGraph) (type : TypeDeclaration) (distance : Nat) :
    graph.ancestor? type (distance + 1) =
      (graph.baseOf? type).bind fun base => graph.ancestor? base distance := by
  induction distance with
  | zero =>
      change (some type).bind graph.baseOf? = (graph.baseOf? type).bind some
      rw [Option.bind_some, Option.bind_fun_some]
  | succ distance ih =>
      rw [ancestor?, ih, Option.bind_assoc]
      rfl

/-- Bases are declared under their own names. -/
theorem declared_of_baseOf? {base : TypeDeclaration} (found : graph.baseOf? type = some base) :
    graph.get? base.fullName = some base := by
  obtain ⟨name, -, lookup⟩ := Option.bind_eq_some_iff.mp found
  rwa [fullName_of_get?_eq_some lookup]

theorem eq_of_declared {other : TypeDeclaration} (first : graph.get? type.fullName = some type)
    (second : graph.get? other.fullName = some other) (same : other.fullName = type.fullName) :
    other = type := by
  rw [same, first] at second
  exact (Option.some.inj second).symm

/-! ### One step of a lineage -/

section

variable {steps : Nat} {seen : List String} {base : TypeDeclaration}

theorem lineageFrom_of_baseless (none : graph.baseOf? type = none) :
    graph.lineageFrom (steps + 1) seen type = [type] := by
  rw [lineageFrom, none]

theorem lineageFrom_of_met (above : graph.baseOf? type = some base)
    (met : base.fullName ∈ type.fullName :: seen) :
    graph.lineageFrom (steps + 1) seen type = [type] := by
  have repeated := List.contains_iff_mem.mpr met
  simp only [lineageFrom, above, repeated, if_true]

theorem lineageFrom_of_fresh (above : graph.baseOf? type = some base)
    (fresh : base.fullName ∉ type.fullName :: seen) :
    graph.lineageFrom (steps + 1) seen type =
      type :: graph.lineageFrom steps (type.fullName :: seen) base := by
  have unmet : (type.fullName :: seen).contains base.fullName = false := by
    rwa [Bool.eq_false_iff, ne_eq, List.contains_iff_mem]
  simp only [lineageFrom, above, unmet, Bool.false_eq_true, if_false]

end

/-! ### The walk along the bases -/

/-- A walk that stands at a type has met the names in `seen`, each once, and has steps enough left
to meet all other names of the graph. -/
structure Walk (graph : SymbolGraph) (steps : Nat) (seen : List String) (type : TypeDeclaration) :
    Prop where
  declared : graph.get? type.fullName = some type
  distinct : (type.fullName :: seen).Nodup
  known : ∀ name ∈ seen, name ∈ graph.types.map TypeDeclaration.fullName
  room : graph.types.length ≤ steps + seen.length

theorem walk_start (declared : graph.get? type.fullName = some type) {steps : Nat}
    (room : graph.types.length ≤ steps) : Walk graph steps [] type where
  declared
  distinct := List.nodup_singleton _
  known := by simp
  room := by simpa using room

namespace Walk

variable {steps : Nat} {seen : List String}

theorem known_cons (walk : Walk graph steps seen type) :
    ∀ name ∈ type.fullName :: seen, name ∈ graph.types.map TypeDeclaration.fullName := by
  intro name member
  rcases List.mem_cons.mp member with same | before
  · subst same
    exact mem_fullNames_of_get?_eq_some walk.declared
  · exact walk.known name before

theorem steps_pos (walk : Walk graph steps seen type) : 0 < steps := by
  have bound := walk.distinct.length_le_of_subset walk.known_cons
  have room := walk.room
  rw [List.length_map, List.length_cons] at bound
  omega

theorem next {base : TypeDeclaration} (walk : Walk graph (steps + 1) seen type)
    (above : graph.baseOf? type = some base) (fresh : base.fullName ∉ type.fullName :: seen) :
    Walk graph steps (type.fullName :: seen) base where
  declared := declared_of_baseOf? above
  distinct := List.nodup_cons.mpr ⟨fresh, walk.distinct⟩
  known := walk.known_cons
  room := by
    have room := walk.room
    rw [List.length_cons]
    omega

theorem mem_lineageFrom (walk : Walk graph steps seen type) :
    type ∈ graph.lineageFrom steps seen type := by
  have positive := walk.steps_pos
  cases steps with
  | zero => cases positive
  | succ steps => exact List.mem_cons_self

/-- A base with a name that was met is the type where the walk stands, or was met before. -/
theorem mem_lineageFrom_of_met {base : TypeDeclaration} (walk : Walk graph steps seen type)
    (declared : graph.get? base.fullName = some base)
    (met : base.fullName ∈ type.fullName :: seen) :
    base ∈ graph.lineageFrom steps seen type ∨ base.fullName ∈ seen := by
  rcases List.mem_cons.mp met with same | before
  · rw [eq_of_declared walk.declared declared same]
    exact .inl walk.mem_lineageFrom
  · exact .inr before

/-- The base of a type on the way is on the way too, or was met before. -/
theorem base_mem_lineageFrom (walk : Walk graph steps seen type) {ancestor base : TypeDeclaration}
    (member : ancestor ∈ graph.lineageFrom steps seen type)
    (found : graph.baseOf? ancestor = some base) :
    base ∈ graph.lineageFrom steps seen type ∨ base.fullName ∈ seen := by
  induction steps generalizing seen type with
  | zero => cases member
  | succ steps ih =>
      have declared := declared_of_baseOf? found
      cases above : graph.baseOf? type with
      | none =>
          rw [lineageFrom_of_baseless above, List.mem_singleton] at member
          subst member
          rw [above] at found
          cases found
      | some next =>
          by_cases met : next.fullName ∈ type.fullName :: seen
          · rw [lineageFrom_of_met above met, List.mem_singleton] at member
            subst member
            cases above.symm.trans found
            exact walk.mem_lineageFrom_of_met declared met
          · have later := walk.next above met
            have whole : graph.lineageFrom (steps + 1) seen type =
                type :: graph.lineageFrom steps (type.fullName :: seen) next :=
              lineageFrom_of_fresh above met
            rw [whole] at member
            rcases List.mem_cons.mp member with here | further
            · subst here
              cases above.symm.trans found
              rw [whole]
              exact .inl (List.mem_cons_of_mem _ later.mem_lineageFrom)
            · rcases ih later further with inside | before
              · rw [whole]
                exact .inl (List.mem_cons_of_mem _ inside)
              · exact walk.mem_lineageFrom_of_met declared before

/-- Steps beyond those that a walk needs change nothing. -/
theorem lineageFrom_eq {more : Nat} (walk : Walk graph steps seen type)
    (longer : Walk graph more seen type) :
    graph.lineageFrom more seen type = graph.lineageFrom steps seen type := by
  induction steps generalizing more seen type with
  | zero => cases walk.steps_pos
  | succ steps ih =>
      have positive := longer.steps_pos
      cases more with
      | zero => cases positive
      | succ more =>
          cases above : graph.baseOf? type with
          | none => rw [lineageFrom_of_baseless above, lineageFrom_of_baseless above]
          | some next =>
              by_cases met : next.fullName ∈ type.fullName :: seen
              · rw [lineageFrom_of_met above met, lineageFrom_of_met above met]
              · rw [lineageFrom_of_fresh above met, lineageFrom_of_fresh above met,
                  ih (walk.next above met) (longer.next above met)]

end Walk

/-! ### Whole lineages -/

/-- As many steps as there are types are enough for a lineage. -/
theorem lineageFrom_eq_lineage (declared : graph.get? type.fullName = some type) {steps : Nat}
    (room : graph.types.length ≤ steps) :
    graph.lineageFrom steps [] type = graph.lineage type :=
  (walk_start declared (Nat.le_succ _)).lineageFrom_eq (walk_start declared room)

/-- The same holds of a type of the graph that stands behind another one of its name. -/
theorem lineageFrom_eq_lineage_of_mem (member : type ∈ graph.types) {steps : Nat}
    (room : graph.types.length ≤ steps) :
    graph.lineageFrom steps [] type = graph.lineage type := by
  have nonempty := List.length_pos_of_mem member
  obtain ⟨steps, rfl⟩ := Nat.exists_eq_add_one_of_ne_zero (show steps ≠ 0 by omega)
  rw [lineage]
  cases above : graph.baseOf? type with
  | none => rw [lineageFrom_of_baseless above, lineageFrom_of_baseless above]
  | some base =>
      by_cases met : base.fullName ∈ [type.fullName]
      · rw [lineageFrom_of_met above met, lineageFrom_of_met above met]
      · -- The type need not be the one that its name leads to, but its base is.
        have walk (more : Nat) (enough : graph.types.length ≤ more + 1) :
            Walk graph more [type.fullName] base :=
          { declared := declared_of_baseOf? above
            distinct := List.nodup_cons.mpr ⟨met, List.nodup_singleton _⟩
            known := by
              intro name same
              rw [List.mem_singleton.mp same]
              exact List.mem_map_of_mem member
            room := enough }
        rw [lineageFrom_of_fresh above met, lineageFrom_of_fresh above met,
          (walk _ (Nat.le_succ _)).lineageFrom_eq (walk steps room)]

theorem mem_lineage_of_ancestor? (declared : graph.get? type.fullName = some type)
    {distance : Nat} {ancestor : TypeDeclaration}
    (reached : graph.ancestor? type distance = some ancestor) :
    ancestor ∈ graph.lineage type := by
  have walk := walk_start declared (Nat.le_succ graph.types.length)
  induction distance generalizing ancestor with
  | zero =>
      cases reached
      exact walk.mem_lineageFrom
  | succ distance ih =>
      obtain ⟨below, before, found⟩ := Option.bind_eq_some_iff.mp reached
      rcases walk.base_mem_lineageFrom (ih before) found with inside | met
      · exact inside
      · cases met

theorem getElem?_lineageFrom {steps : Nat} {seen : List String} {distance : Nat}
    (inside : distance < (graph.lineageFrom steps seen type).length) :
    (graph.lineageFrom steps seen type)[distance]? = graph.ancestor? type distance := by
  induction steps generalizing seen type distance with
  | zero => cases inside
  | succ steps ih =>
      cases distance with
      | zero => rfl
      | succ distance =>
          cases above : graph.baseOf? type with
          | none => simp [lineageFrom_of_baseless above] at inside
          | some next =>
              by_cases met : next.fullName ∈ type.fullName :: seen
              · simp [lineageFrom_of_met above met] at inside
              · rw [lineageFrom_of_fresh above met] at inside ⊢
                rw [List.length_cons, Nat.add_lt_add_iff_right] at inside
                rw [ancestor?_succ, above, Option.bind_some, List.getElem?_cons_succ, ih inside]

theorem getElem?_lineage {distance : Nat} (inside : distance < (graph.lineage type).length) :
    (graph.lineage type)[distance]? = graph.ancestor? type distance :=
  getElem?_lineageFrom inside

end ActionAtlas.SymbolGraph
