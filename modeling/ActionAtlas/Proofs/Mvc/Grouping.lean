import ActionAtlas.Mvc.Grouping
import ActionAtlas.Proofs.FirstOccurrence

/-!
What grouping computes. After any sequence of pushes the areas are the names pushed so far in the
order of their first occurrence, each with everything that was pushed under it, and the positions
are those of the names. One push keeps this, so every run does.
-/

namespace ActionAtlas.Mvc.Grouping

def pushedUnder (name : String) (pairs : List (String × Controller)) : List Controller :=
  (pairs.filter fun pair => pair.1 == name).map Prod.snd

def pushedNames (pairs : List (String × Controller)) : List String :=
  (pairs.map Prod.fst).eraseDups

/-- The grouping of exactly these pushes. -/
structure Holds (grouping : Grouping) (pairs : List (String × Controller)) : Prop where
  areas_eq : grouping.areas =
    (pushedNames pairs).map fun name => { name, controllers := pushedUnder name pairs }
  positions_eq : ∀ name, grouping.positions[name]? = (pushedNames pairs).idxOf? name

theorem pushedNames_nodup (pairs : List (String × Controller)) : (pushedNames pairs).Nodup :=
  FirstOccurrence.nodup_eraseDups (pairs.map Prod.fst)

theorem mem_pushedNames {name : String} {pairs : List (String × Controller)} :
    name ∈ pushedNames pairs ↔ ∃ pair ∈ pairs, pair.1 = name := by
  rw [pushedNames, List.mem_eraseDups, List.mem_map]

theorem pushedNames_concat_of_mem {name : String} {pairs : List (String × Controller)}
    (known : name ∈ pushedNames pairs) (controller : Controller) :
    pushedNames (pairs ++ [(name, controller)]) = pushedNames pairs := by
  have before : name ∈ pairs.map Prod.fst := List.mem_eraseDups.mp known
  rw [pushedNames, List.map_append]
  exact FirstOccurrence.eraseDups_concat_of_mem before

theorem pushedNames_concat_of_not_mem {name : String} {pairs : List (String × Controller)}
    (fresh : name ∉ pushedNames pairs) (controller : Controller) :
    pushedNames (pairs ++ [(name, controller)]) = pushedNames pairs ++ [name] := by
  have before : name ∉ pairs.map Prod.fst := fun present => fresh (List.mem_eraseDups.mpr present)
  rw [pushedNames, List.map_append]
  exact FirstOccurrence.eraseDups_concat_of_not_mem before

theorem pushedUnder_concat_self (name : String) (pairs : List (String × Controller))
    (controller : Controller) :
    pushedUnder name (pairs ++ [(name, controller)]) = pushedUnder name pairs ++ [controller] := by
  simp [pushedUnder]

theorem pushedUnder_concat_of_ne {name other : String} (different : name ≠ other)
    (pairs : List (String × Controller)) (controller : Controller) :
    pushedUnder other (pairs ++ [(name, controller)]) = pushedUnder other pairs := by
  simp [pushedUnder, different]

theorem pushedUnder_eq_nil {name : String} {pairs : List (String × Controller)}
    (fresh : name ∉ pushedNames pairs) : pushedUnder name pairs = [] := by
  rw [pushedUnder, List.map_eq_nil_iff, List.filter_eq_nil_iff]
  intro pair member same
  exact fresh (mem_pushedNames.mpr ⟨pair, member, eq_of_beq same⟩)

theorem pushedUnder_append (name : String) (pairs more : List (String × Controller)) :
    pushedUnder name (pairs ++ more) = pushedUnder name pairs ++ pushedUnder name more := by
  rw [pushedUnder, List.filter_append, List.map_append, pushedUnder, pushedUnder]

theorem pushedNames_append (pairs more : List (String × Controller)) :
    pushedNames (pairs ++ more) =
      pushedNames pairs ++ (pushedNames more).filter fun name => name ∉ pushedNames pairs := by
  rw [pushedNames, List.map_append, FirstOccurrence.eraseDups_append, List.removeAll]
  congr 1
  apply List.filter_congr
  intro name _
  rw [Bool.eq_iff_iff, decide_eq_true_iff, pushedNames, List.mem_eraseDups]
  simp

theorem holds_empty : Holds empty [] where
  areas_eq := rfl
  positions_eq := by intro name; simp [empty, pushedNames]

/-- A push under a known name adds to one area, at the position of the name. -/
private theorem Holds.push_known {grouping : Grouping} {pairs : List (String × Controller)}
    (holds : Holds grouping pairs) (name : String) (controller : Controller) {position : Nat}
    (found : grouping.positions[name]? = some position) :
    Holds (grouping.push name controller) (pairs ++ [(name, controller)]) := by
  have located : (pushedNames pairs).idxOf? name = some position := by
    rw [← holds.positions_eq, found]
  have known : name ∈ pushedNames pairs := by
    by_contra absent
    rw [List.idxOf?_eq_none_iff.mpr absent] at located
    cases located
  have pushed : grouping.push name controller =
      { grouping with areas := grouping.areas.modify position (Area.add controller) } := by
    simp only [push, found]
  rw [pushed]
  refine ⟨?_, ?_⟩
  · -- At its position the name is itself, and anywhere else another one, as names occur once.
    change grouping.areas.modify position (Area.add controller) = _
    rw [pushedNames_concat_of_mem known, holds.areas_eq]
    apply List.ext_getElem?
    intro index
    rw [List.getElem?_modify, List.getElem?_map, List.getElem?_map]
    cases at_index : (pushedNames pairs)[index]? with
    | none => rfl
    | some other =>
        rw [Option.map_some, Option.map_some]
        have unique : position = index ↔ name = other :=
          FirstOccurrence.eq_iff_of_nodup (pushedNames_nodup pairs) located at_index
        by_cases same : name = other
        · subst same
          rw [pushedUnder_concat_self]
          simp [unique.mpr rfl, Area.add]
        · rw [pushedUnder_concat_of_ne same]
          simp [mt unique.mp same]
  · intro other
    rw [pushedNames_concat_of_mem known]
    exact holds.positions_eq other

/-- A push under a new name opens one area behind all others. -/
private theorem Holds.push_new {grouping : Grouping} {pairs : List (String × Controller)}
    (holds : Holds grouping pairs) (name : String) (controller : Controller)
    (missing : grouping.positions[name]? = none) :
    Holds (grouping.push name controller) (pairs ++ [(name, controller)]) := by
  have fresh : name ∉ pushedNames pairs := by
    rw [← List.idxOf?_eq_none_iff, ← holds.positions_eq, missing]
  have count : grouping.areas.length = (pushedNames pairs).length := by
    rw [holds.areas_eq, List.length_map]
  have pushed : grouping.push name controller =
      { areas := grouping.areas ++ [{ name, controllers := [controller] }]
        positions := grouping.positions.insert name grouping.areas.length } := by
    simp only [push, missing]
  rw [pushed]
  refine ⟨?_, ?_⟩
  · change grouping.areas ++ [{ name, controllers := [controller] }] = _
    rw [pushedNames_concat_of_not_mem fresh, List.map_append, holds.areas_eq]
    congr 1
    · apply List.map_congr_left
      intro other member
      have different : name ≠ other := by
        rintro rfl
        exact fresh member
      rw [pushedUnder_concat_of_ne different]
    · rw [List.map_singleton, pushedUnder_concat_self, pushedUnder_eq_nil fresh,
        List.nil_append]
  · intro other
    rw [pushedNames_concat_of_not_mem fresh, FirstOccurrence.idxOf?_concat, Std.HashMap.getElem?_insert, count,
      holds.positions_eq other]
    by_cases same : name = other
    · subst same
      simp [List.idxOf?_eq_none_iff.mpr fresh]
    · simp [same]

theorem Holds.push {grouping : Grouping} {pairs : List (String × Controller)}
    (holds : Holds grouping pairs) (name : String) (controller : Controller) :
    Holds (grouping.push name controller) (pairs ++ [(name, controller)]) := by
  cases found : grouping.positions[name]? with
  | none => exact holds.push_new name controller found
  | some position => exact holds.push_known name controller found

theorem holds_ofPairs (pairs : List (String × Controller)) : Holds (ofPairs pairs) pairs := by
  induction pairs using List.reverseRecOn with
  | nil => exact holds_empty
  | append_singleton before pair ih =>
      rw [ofPairs, List.foldl_concat]
      exact ih.push pair.1 pair.2

/-! ### The state between pushes -/

/-- The grouping is one of these pushes: its areas are what they name, in the order in which they
first do, each with what was pushed under its name, and the positions lead to the areas. -/
structure Groups (grouping : Grouping) (pairs : List (String × Controller)) : Prop where
  names_nodup : (grouping.areas.map Area.name).Nodup
  mem_names_iff : ∀ name, name ∈ grouping.areas.map Area.name ↔ name ∈ pairs.map Prod.fst
  names_inOrder : (grouping.areas.map Area.name).Pairwise fun name later =>
    (pairs.map Prod.fst).idxOf name < (pairs.map Prod.fst).idxOf later
  /-- Only names of areas have positions, so no position lies behind the last area. -/
  position_iff : ∀ name position, grouping.positions[name]? = some position ↔
    ∃ area : Area, grouping.areas[position]? = some area ∧ area.name = name
  controllers_eq : ∀ area ∈ grouping.areas, area.controllers = pushedUnder area.name pairs

/-- A controller comes to stand behind those of one area, or in an area of its own behind all areas.
Everything else stays. -/
inductive Puts (name : String) (controller : Controller) : Grouping → Grouping → Prop
  | intoArea (before after : List Area) (area : Area) (positions : Std.HashMap String Nat)
      (same : area.name = name) :
      Puts name controller ⟨before ++ area :: after, positions⟩
        ⟨before ++ { area with controllers := area.controllers ++ [controller] } :: after, positions⟩
  | intoNewArea (areas : List Area) (positions extended : Std.HashMap String Nat)
      (fresh : name ∉ areas.map Area.name)
      (entered : ∀ other, extended[other]? =
        if other = name then some areas.length else positions[other]?) :
      Puts name controller ⟨areas, positions⟩
        ⟨areas ++ [{ name, controllers := [controller] }], extended⟩

theorem Holds.names_eq {grouping : Grouping} {pairs : List (String × Controller)}
    (holds : Holds grouping pairs) : grouping.areas.map Area.name = pushedNames pairs := by
  rw [holds.areas_eq, List.map_map]
  exact List.map_id _

theorem Holds.groups {grouping : Grouping} {pairs : List (String × Controller)}
    (holds : Holds grouping pairs) : Groups grouping pairs where
  names_nodup := by
    rw [holds.names_eq]
    exact pushedNames_nodup pairs
  mem_names_iff := by
    intro name
    rw [holds.names_eq, pushedNames, List.mem_eraseDups]
  names_inOrder := by
    rw [holds.names_eq]
    exact FirstOccurrence.pairwise_idxOf_eraseDups _
  position_iff := by
    intro name position
    have located : (pushedNames pairs).idxOf? name = some position ↔
        (pushedNames pairs)[position]? = some name := by
      rw [List.idxOf?_eq_some_iff, List.getElem?_eq_some_iff]
      constructor
      · rintro ⟨inside, here, -⟩
        exact ⟨inside, here⟩
      · rintro ⟨inside, here⟩
        refine ⟨inside, here, ?_⟩
        -- Names occur once, so none of the positions before it has the name.
        intro earlier less same
        have equal := (pushedNames_nodup pairs).getElem_inj_iff.mp (same.trans here.symm)
        omega
    rw [holds.positions_eq, located, ← holds.names_eq, List.getElem?_map, Option.map_eq_some_iff]
  controllers_eq := by
    intro area member
    rw [holds.areas_eq, List.mem_map] at member
    obtain ⟨name, -, rfl⟩ := member
    rfl

theorem Groups.puts {grouping : Grouping} {pairs : List (String × Controller)}
    (groups : Groups grouping pairs) (name : String) (controller : Controller) :
    Puts name controller grouping (grouping.push name controller) := by
  obtain ⟨areas, positions⟩ := grouping
  cases found : positions[name]? with
  | none =>
      have fresh : name ∉ areas.map Area.name := by
        intro known
        obtain ⟨area, member, same⟩ := List.mem_map.mp known
        obtain ⟨position, there⟩ := List.mem_iff_getElem?.mp member
        have located := (groups.position_iff name position).mpr ⟨area, there, same⟩
        rw [found] at located
        cases located
      have pushed : push ⟨areas, positions⟩ name controller =
          ⟨areas ++ [{ name, controllers := [controller] }],
            positions.insert name areas.length⟩ := by
        simp only [push, found]
      rw [pushed]
      refine .intoNewArea areas positions _ fresh fun other => ?_
      rw [Std.HashMap.getElem?_insert]
      by_cases same : other = name
      · simp [same]
      · simp [same, Ne.symm same]
  | some position =>
      obtain ⟨area, there, same⟩ := (groups.position_iff name position).mp found
      obtain ⟨inside, rfl⟩ := List.getElem?_eq_some_iff.mp there
      have pushed : push ⟨areas, positions⟩ name controller =
          ⟨areas.modify position (Area.add controller), positions⟩ := by
        simp only [push, found]
      have split : areas =
          areas.take position ++ areas[position] :: areas.drop (position + 1) := by
        rw [List.cons_getElem_drop_succ, List.take_append_drop]
      rw [pushed, List.modify_eq_take_cons_drop inside]
      nth_rewrite 1 [split]
      exact .intoArea _ _ _ positions same

/-- After every push the grouping is one of the pushes so far, and the next push only puts its
controller somewhere. -/
theorem groups_and_puts (pairs : List (String × Controller)) (name : String)
    (controller : Controller) :
    Groups (ofPairs pairs) pairs ∧
      Puts name controller (ofPairs pairs) ((ofPairs pairs).push name controller) ∧
      Groups ((ofPairs pairs).push name controller) (pairs ++ [(name, controller)]) := by
  have holds := holds_ofPairs pairs
  exact ⟨holds.groups, holds.groups.puts name controller, (holds.push name controller).groups⟩

end ActionAtlas.Mvc.Grouping
