import Mathlib.Data.List.Nodup
import Mathlib.Data.List.Perm.Subperm
import DocAudit.Machine.Built

namespace DocAudit.Machine.Blueprint

/-!
# Chains of fires

The handler of an event may fire another event, whose handler may fire a third one. A
chain lists the events that are fired like this in a state, from the first one to one
that the table refuses or whose handler fires nothing. All events of a chain but the
last have handlers, and no event stands in it twice, because the chain behind both
places would be the same. So a chain is no longer than the handlers are many, and one
more.
-/

/-- The events that are fired in a state, each one by the handler of the one before. -/
inductive Chain
    (blueprint : Blueprint)
    (state : Member) :
    Member →
    List Member →
    Prop where
  | refused
      {event : Member} :
      blueprint.transitions.get? (state, event) = none →
      Chain blueprint state event [event]
  | last
      {event target : Member} :
      blueprint.transitions.get? (state, event) = some target →
      (∀ inner, blueprint.handlers.get? event ≠ some (.fire inner)) →
      Chain blueprint state event [event]
  | nested
      {event target inner : Member}
      {rest : List Member} :
      blueprint.transitions.get? (state, event) = some target →
      blueprint.handlers.get? event = some (.fire inner) →
      Chain blueprint state inner rest →
      Chain blueprint state event (event :: rest)

namespace Chain

variable
  {blueprint : Blueprint}
  {state event : Member}
  {chain other : List Member}

/-- An event begins one chain at most. -/
theorem unique
    (finite : Chain blueprint state event chain)
    (alsoFinite : Chain blueprint state event other) :
    other = chain := by
  induction finite generalizing other with
  | refused unknown =>
      cases alsoFinite with
      | refused _ => rfl
      | last known _ => simp [unknown] at known
      | nested known _ _ => simp [unknown] at known
  | last known ends =>
      cases alsoFinite with
      | refused unknown => simp [unknown] at known
      | last _ _ => rfl
      | nested _ nests _ => exact (ends _ nests).elim
  | @nested event target inner rest known nests _ inductionHypothesis =>
      cases alsoFinite with
      | refused unknown => simp [unknown] at known
      | last _ ends => exact (ends _ nests).elim
      | @nested _ _ otherInner otherRest _ otherNests restFinite =>
          have sameInner : otherInner = inner := by
            simpa [nests, eq_comm] using otherNests
          subst sameInner
          rw [inductionHypothesis restFinite]

/-- Every event of a chain begins a chain that is not longer. -/
theorem exists_of_mem
    (finite : Chain blueprint state event chain)
    {fired : Member}
    (member : fired ∈ chain) :
    ∃ behind,
      Chain blueprint state fired behind ∧ behind.length ≤ chain.length := by
  induction finite with
  | refused unknown =>
      rw [List.mem_singleton.mp member]
      exact ⟨_, .refused unknown, Nat.le_refl _⟩
  | last known ends =>
      rw [List.mem_singleton.mp member]
      exact ⟨_, .last known ends, Nat.le_refl _⟩
  | nested known nests restFinite inductionHypothesis =>
      rcases List.mem_cons.mp member with isHead | inRest
      · rw [isHead]
        exact ⟨_, .nested known nests restFinite, Nat.le_refl _⟩
      · obtain ⟨behind, behindFinite, notLonger⟩ := inductionHypothesis inRest
        exact ⟨behind, behindFinite, Nat.le_succ_of_le notLonger⟩

/-- No event is fired twice in a chain. -/
theorem nodup (finite : Chain blueprint state event chain) : chain.Nodup := by
  induction finite with
  | refused _ => simp
  | last _ _ => simp
  | nested known nests restFinite inductionHypothesis =>
      refine List.nodup_cons.mpr ⟨?_, inductionHypothesis⟩
      intro again
      obtain ⟨behind, behindFinite, notLonger⟩ := restFinite.exists_of_mem again
      have sameChain := unique (.nested known nests restFinite) behindFinite
      rw [sameChain, List.length_cons] at notLonger
      exact Nat.not_succ_le_self _ notLonger

theorem ne_nil (finite : Chain blueprint state event chain) : chain ≠ [] := by
  cases finite <;> exact List.cons_ne_nil _ _

/-- All events of a chain but the last have handlers. -/
theorem mem_keys_of_mem_dropLast
    (finite : Chain blueprint state event chain)
    {fired : Member}
    (member : fired ∈ chain.dropLast) :
    fired ∈ blueprint.handlers.keys := by
  induction finite with
  | refused _ => simp at member
  | last _ _ => simp at member
  | nested _ nests restFinite inductionHypothesis =>
      rw [List.dropLast_cons_of_ne_nil restFinite.ne_nil] at member
      rcases List.mem_cons.mp member with isHead | inRest
      · rw [isHead]
        exact OrderedMap.mem_keys_of_get? nests
      · exact inductionHypothesis inRest

/-- A chain has one event more than there are handlers at most. -/
theorem length_le
    (finite : Chain blueprint state event chain) :
    chain.length ≤ blueprint.handlers.entries.length + 1 := by
  have distinct : chain.dropLast.Nodup :=
    finite.nodup.sublist chain.dropLast_sublist
  have fewKeys : chain.dropLast.length ≤ blueprint.handlers.keys.length :=
    (List.subperm_of_subset distinct fun _ => finite.mem_keys_of_mem_dropLast).length_le
  rw [List.length_dropLast, OrderedMap.keys, List.length_map] at fewKeys
  omega

end Chain

end DocAudit.Machine.Blueprint
