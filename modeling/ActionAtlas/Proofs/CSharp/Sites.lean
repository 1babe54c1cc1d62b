import Mathlib
import ActionAtlas.CSharp.Collection

/-!
Where the declarations of a source file stand.

A site is a type declaration with the indices that lead to it and with what stands around it. The
types that are collected are the records of all sites, in the order of their positions: what is
around comes before what is inside, and what is inside before all that follows.
-/

namespace ActionAtlas.CSharp

/-! ### Sites -/

/-- What can stand around a declaration. -/
inductive Container where
  | namespaceBlock (name : String) (body : List Member)
  | type (head : TypeHead) (body : List Member)

/-- The position has one index for each body that the declaration stands in, `around` the owners of
these bodies, outermost first. -/
structure Site where
  position : List Nat
  around : List Container
  head : TypeHead
  body : List Member

namespace Site

def within (index : Nat) (container : Container) (site : Site) : Site :=
  { site with position := index :: site.position, around := container :: site.around }

inductive StandsIn : List Member → Site → Prop where
  | directly {members : List Member} {index : Nat} {head : TypeHead} {body : List Member}
      (here : members[index]? = some (.type head body)) :
      StandsIn members ⟨[index], [], head, body⟩
  | inNamespace {members : List Member} {index : Nat} {name : String} {body : List Member}
      {site : Site} (here : members[index]? = some (.namespaceBlock name body))
      (inside : StandsIn body site) :
      StandsIn members (site.within index (.namespaceBlock name body))
  | inType {members : List Member} {index : Nat} {head : TypeHead} {body : List Member}
      {site : Site} (here : members[index]? = some (.type head body))
      (inside : StandsIn body site) : StandsIn members (site.within index (.type head body))

end Site

namespace Member

mutual

def sites (index : Nat) : Member → List Site
  | .namespaceBlock name body =>
    (sitesIn 0 body).map (Site.within index (.namespaceBlock name body))
  | .type head body =>
    ⟨[index], [], head, body⟩ :: (sitesIn 0 body).map (Site.within index (.type head body))
  | .using _ => []
  | .fileNamespace _ => []
  | .method _ _ => []
  | .other => []

/-- The sites in members of which the first has the index `start`. -/
def sitesIn (start : Nat) : List Member → List Site
  | [] => []
  | member :: others => member.sites start ++ sitesIn (start + 1) others

end

theorem mem_sitesIn_of_getElem? {site : Site} {members : List Member} {member : Member}
    {index start : Nat} (here : members[index]? = some member)
    (inside : site ∈ member.sites (start + index)) : site ∈ sitesIn start members := by
  induction members generalizing index start with
  | nil => cases here
  | cons first others ih =>
      rw [sitesIn, List.mem_append]
      cases index with
      | zero =>
          cases here
          exact .inl inside
      | succ index =>
          apply Or.inr
          apply ih here
          rwa [Nat.add_right_comm]

theorem mem_sitesIn_of_standsIn {site : Site} {members : List Member}
    (stands : site.StandsIn members) : site ∈ sitesIn 0 members := by
  induction stands with
  | directly here =>
      apply mem_sitesIn_of_getElem? here
      rw [Nat.zero_add, sites]
      exact List.mem_cons_self
  | inNamespace here _ ih =>
      apply mem_sitesIn_of_getElem? here
      rw [Nat.zero_add, sites]
      exact List.mem_map_of_mem ih
  | inType here _ ih =>
      apply mem_sitesIn_of_getElem? here
      rw [Nat.zero_add, sites]
      exact List.mem_cons_of_mem _ (List.mem_map_of_mem ih)

mutual

theorem standsIn_of_mem_sites (member : Member) {site : Site} {members : List Member}
    {index : Nat} (here : members[index]? = some member) (inside : site ∈ member.sites index) :
    site.StandsIn members := by
  match member with
  | .namespaceBlock name body =>
      rw [sites, List.mem_map] at inside
      obtain ⟨inner, own, rfl⟩ := inside
      exact .inNamespace here (standsIn_of_mem_sitesIn body (fun _ => by rw [Nat.zero_add]) own)
  | .type head body =>
      rw [sites, List.mem_cons, List.mem_map] at inside
      rcases inside with rfl | ⟨inner, own, rfl⟩
      · exact .directly here
      · exact .inType here (standsIn_of_mem_sitesIn body (fun _ => by rw [Nat.zero_add]) own)
  | .using _ => cases inside
  | .fileNamespace _ => cases inside
  | .method _ _ => cases inside
  | .other => cases inside

/-- The members may be the end of a longer list, in which the indices count. -/
theorem standsIn_of_mem_sitesIn (members : List Member) {site : Site} {all : List Member}
    {start : Nat} (placed : ∀ index, all[start + index]? = members[index]?)
    (inside : site ∈ sitesIn start members) : site.StandsIn all := by
  match members with
  | [] => cases inside
  | member :: others =>
      rw [sitesIn, List.mem_append] at inside
      rcases inside with first | later
      · exact standsIn_of_mem_sites member (placed 0) first
      · refine standsIn_of_mem_sitesIn others (fun index => ?_) later
        rw [Nat.add_right_comm]
        exact placed (index + 1)

end

theorem mem_sitesIn_iff {site : Site} {members : List Member} :
    site ∈ sitesIn 0 members ↔ site.StandsIn members :=
  ⟨standsIn_of_mem_sitesIn members fun _ => by rw [Nat.zero_add], mem_sitesIn_of_standsIn⟩

/-! ### Order -/

/-- Sites in the order of their positions, none of which begins below `start`. -/
structure AreOrderedFrom (start : Nat) (sites : List Site) : Prop where
  pairwise : sites.Pairwise fun first second => first.position < second.position
  start_le : ∀ site ∈ sites, ∃ index rest, site.position = index :: rest ∧ start ≤ index

theorem position_within_lt {index : Nat} {container : Container} {first second : Site}
    (before : first.position < second.position) :
    (first.within index container).position < (second.within index container).position :=
  List.cons_lt_cons_iff.mpr (.inr ⟨rfl, before⟩)

mutual

theorem areOrdered_sites (member : Member) (index : Nat) :
    (member.sites index).Pairwise (fun first second => first.position < second.position) ∧
      ∀ site ∈ member.sites index, ∃ rest, site.position = index :: rest := by
  match member with
  | .namespaceBlock name body =>
      have ordered := areOrderedFrom_sitesIn body 0
      rw [sites]
      refine ⟨List.pairwise_map.mpr (ordered.pairwise.imp position_within_lt), ?_⟩
      intro site inside
      obtain ⟨inner, -, rfl⟩ := List.mem_map.mp inside
      exact ⟨inner.position, rfl⟩
  | .type head body =>
      have ordered := areOrderedFrom_sitesIn body 0
      rw [sites]
      constructor
      · -- the position of the type itself is the beginning of all others
        rw [List.pairwise_cons, List.pairwise_map]
        refine ⟨?_, ordered.pairwise.imp position_within_lt⟩
        intro site inside
        obtain ⟨inner, own, rfl⟩ := List.mem_map.mp inside
        obtain ⟨first, rest, position, -⟩ := ordered.start_le inner own
        apply List.cons_lt_cons_iff.mpr
        rw [position]
        exact .inr ⟨rfl, List.nil_lt_cons first rest⟩
      · intro site inside
        rcases List.mem_cons.mp inside with rfl | inside
        · exact ⟨[], rfl⟩
        · obtain ⟨inner, -, rfl⟩ := List.mem_map.mp inside
          exact ⟨inner.position, rfl⟩
  | .using _ => simp [sites]
  | .fileNamespace _ => simp [sites]
  | .method _ _ => simp [sites]
  | .other => simp [sites]

theorem areOrderedFrom_sitesIn (members : List Member) (start : Nat) :
    AreOrderedFrom start (sitesIn start members) := by
  match members with
  | [] => exact ⟨.nil, by simp [sitesIn]⟩
  | member :: others =>
      obtain ⟨here, index_eq⟩ := areOrdered_sites member start
      have later := areOrderedFrom_sitesIn others (start + 1)
      rw [sitesIn]
      constructor
      · refine List.pairwise_append.mpr ⟨here, later.pairwise, ?_⟩
        intro first own second other
        obtain ⟨rest, position⟩ := index_eq first own
        obtain ⟨index, further, beyond, above⟩ := later.start_le second other
        rw [position, beyond]
        exact List.cons_lt_cons_iff.mpr (.inl above)
      · intro site inside
        rcases List.mem_append.mp inside with own | other
        · obtain ⟨rest, position⟩ := index_eq site own
          exact ⟨start, rest, position, Nat.le_refl start⟩
        · obtain ⟨index, rest, position, above⟩ := later.start_le site other
          exact ⟨index, rest, position, Nat.le_of_succ_le above⟩

end

end Member

end ActionAtlas.CSharp
