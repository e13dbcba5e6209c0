import FakeNetNG.CoordinationRuns

/-!
# The command cache

The cache is in the order of acceptance and is trimmed when a command ends, so what protects
a finished command is how many finished commands stand behind it. They are counted here from
the time when the command ended.
-/

namespace FakeNetNG

namespace Coordination
namespace Coordinator

variable {s : Coordinator} {commandId key : String} {finished : Finset String}

/-- The finished commands behind a command in the cache. -/
def behind (s : Coordinator) (commandId : String) : List String :=
  ((s.commands.keys.dropWhile fun key => key ≠ commandId).tail).filter fun key =>
    !s.activeOperations.contains key

theorem dropWhile_tail_of_not_mem {pre post : List String} (h : commandId ∉ pre) :
    ((pre++commandId :: post).dropWhile fun key => key ≠ commandId).tail = post := by
  rw [List.dropWhile_append_of_pos]
  · simp
  · intro key hkey
    have hne : key ≠ commandId := fun he => h (he ▸ hkey)
    simpa using hne

theorem behind_eq {pre post : List String} (hkeys : s.commands.keys = pre++commandId :: post)
    (hpre : commandId ∉ pre) :
    s.behind commandId = post.filter fun key => !s.activeOperations.contains key := by
  rw [behind,hkeys,dropWhile_tail_of_not_mem hpre]

theorem nodup_keys (s : Coordinator) : s.commands.keys.Nodup := s.commands.nodup

/-- A finished command is in the cache, and what is finished behind it is among the given
commands. -/
structure Held (s : Coordinator) (commandId : String) (finished : Finset String) : Prop where
  cached : commandId ∈ s.commands.keys
  inactive : s.activeOperations.get? commandId = none
  behind : ∀ key ∈ s.behind commandId, key ∈ finished

theorem Held.congr {s' : Coordinator} (h : s.Held commandId finished)
    (hcommands : s'.commands = s.commands) (hactive : s'.activeOperations = s.activeOperations) :
    s'.Held commandId finished where
  cached := hcommands ▸ h.cached
  inactive := hactive ▸ h.inactive
  behind := by
    unfold Coordinator.behind
    rw [hcommands,hactive]
    exact h.behind

theorem Held.mono {others : Finset String} (h : s.Held commandId finished)
    (hsubset : finished ⊆ others) : s.Held commandId others :=
  ⟨h.cached,h.inactive,fun key hkey => hsubset (h.behind key hkey)⟩

theorem exists_split (h : commandId ∈ s.commands.keys) :
    ∃ pre post, s.commands.keys = pre++commandId :: post ∧ commandId ∉ pre ∧ commandId ∉ post := by
  obtain ⟨pre,post,hkeys,hpre⟩ := List.eq_append_cons_of_mem h
  refine ⟨pre,post,hkeys,hpre,fun hpost => ?_⟩
  have hnodup := s.nodup_keys
  rw [hkeys,List.nodup_append] at hnodup
  exact (List.nodup_cons.mp hnodup.2.1).1 hpost

theorem behind_nodup (s : Coordinator) (commandId : String) : (s.behind commandId).Nodup :=
  ((s.nodup_keys.sublist (List.dropWhile_sublist _)).sublist (List.tail_sublist _)).filter _

/-- Of a command that is not active, trimming deletes it when enough finished commands stand
behind it. -/
theorem mem_evicted_iff (h : commandId ∈ s.commands.keys)
    (hinactive : s.activeOperations.get? commandId = none) :
    commandId ∈ s.evicted ↔ commandCacheLimit ≤ (s.behind commandId).length := by
  obtain ⟨pre,post,hkeys,hpre,hpost⟩ := exists_split h
  have hcontains : s.activeOperations.contains commandId = false :=
    (Dict.contains_eq_false_iff _ _).mpr hinactive
  have hcompleted : s.completed =
      (pre.filter fun key => !s.activeOperations.contains key)++commandId :: s.behind commandId := by
    rw [completed,hkeys,behind_eq hkeys hpre,List.filter_append,List.filter_cons]
    simp [hcontains]
  set front := pre.filter fun key => !s.activeOperations.contains key with hfront
  have hmem : commandId ∉ front := fun hm => hpre (List.mem_of_mem_filter hm)
  unfold evicted
  rw [hcompleted,List.take_append,List.mem_append]
  simp only [List.length_append,List.length_cons]
  constructor
  · rintro (hm | hm)
    · exact absurd (List.mem_of_mem_take hm) hmem
    · by_contra hlt
      have hzero : front.length+((s.behind commandId).length+1)-commandCacheLimit-front.length = 0 := by
        omega
      rw [hzero,List.take_zero] at hm
      cases hm
  · intro hle
    right
    have hpos : front.length+((s.behind commandId).length+1)-commandCacheLimit-front.length =
        ((s.behind commandId).length-commandCacheLimit)+1 := by
      omega
    rw [hpos,List.take_succ_cons]
    exact List.mem_cons_self

theorem trim_keys (s : Coordinator) :
    s.trim.commands.keys = s.commands.keys.filter fun key => key ∉ s.evicted := by
  change (s.commands.filter fun key _ => decide (key ∉ s.evicted)).keys = _
  exact Dict.keys_filter _ _

theorem Held.trim (h : s.Held commandId finished) :
    commandCacheLimit ≤ finished.card ∨ s.trim.Held commandId finished := by
  by_cases hevicted : commandId ∈ s.evicted
  · left
    have hle := (mem_evicted_iff h.cached h.inactive).mp hevicted
    have hcard : (s.behind commandId).toFinset.card ≤ finished.card :=
      Finset.card_le_card fun key hkey => h.behind key (List.mem_toFinset.mp hkey)
    rw [List.toFinset_card_of_nodup (s.behind_nodup commandId)] at hcard
    exact le_trans hle hcard
  · right
    obtain ⟨pre,post,hkeys,hpre,-⟩ := exists_split h.cached
    have htrimmed : s.trim.commands.keys = (pre.filter fun key => key ∉ s.evicted)++
        commandId :: post.filter fun key => key ∉ s.evicted := by
      rw [trim_keys,hkeys,List.filter_append,List.filter_cons]
      simp [hevicted]
    refine ⟨?_,h.inactive,fun key hkey => ?_⟩
    · rw [htrimmed]
      simp
    · rw [behind_eq htrimmed fun hm => hpre (List.mem_of_mem_filter hm)] at hkey
      refine h.behind key ?_
      rw [behind_eq hkeys hpre]
      rw [List.mem_filter] at hkey ⊢
      exact ⟨List.mem_of_mem_filter hkey.1,hkey.2⟩

/-- When an operation leaves the table, it is counted or it is the command itself. -/
theorem Held.popActive (h : s.Held commandId finished) (hkey : key = commandId ∨ key ∈ finished) :
    (s.popActive key).Held commandId finished := by
  obtain ⟨pre,post,hkeys,hpre,hpost⟩ := exists_split h.cached
  refine ⟨h.cached,?_,fun other hother => ?_⟩
  · change (s.activeOperations.pop key).get? commandId = none
    rw [Dict.get?_pop]
    split
    · rfl
    · exact h.inactive
  · have hpopped : (s.popActive key).commands.keys = pre++commandId :: post := hkeys
    rw [behind_eq hpopped hpre,List.mem_filter] at hother
    by_cases he : other = key
    · rcases hkey with rfl | hkey
      · exact absurd (he ▸ hother.1) hpost
      · exact he ▸ hkey
    · refine h.behind other ?_
      rw [behind_eq hkeys hpre,List.mem_filter]
      refine ⟨hother.1,?_⟩
      have hactive : (s.popActive key).activeOperations.contains other =
          s.activeOperations.contains other := by
        change (s.activeOperations.pop key).contains other = _
        rw [Dict.contains,Dict.contains,Dict.get?_pop_of_ne _ he]
      rw [← hactive]
      exact hother.2

/-- A record that is stored in place, or behind the command where it is counted or active. -/
theorem Held.set (h : s.Held commandId finished) (record : Record)
    (hkey : key = commandId ∨ key ∈ finished ∨ s.activeOperations.contains key = true) :
    Held { s with commands := s.commands.set key record } commandId finished := by
  cases hcontains : s.commands.contains key with
  | true =>
    have hkeys := Dict.keys_set_of_contains s.commands record hcontains
    refine ⟨?_,h.inactive,?_⟩
    · change commandId ∈ (s.commands.set key record).keys
      rw [hkeys]
      exact h.cached
    · have hbehind : Coordinator.behind { s with commands := s.commands.set key record } commandId =
          s.behind commandId := by
        unfold Coordinator.behind
        rw [hkeys]
      rw [hbehind]
      exact h.behind
  | false =>
    have hkeys := Dict.keys_set_of_new s.commands record hcontains
    obtain ⟨pre,post,hsplit,hpre,-⟩ := exists_split h.cached
    have hne : key ≠ commandId := by
      rintro rfl
      rw [(Dict.contains_iff_mem_keys _ _).mpr h.cached] at hcontains
      cases hcontains
    have hset : (s.commands.set key record).keys = pre++commandId :: (post++[key]) := by
      rw [hkeys,hsplit,List.append_assoc,List.cons_append]
    refine ⟨?_,h.inactive,fun other hother => ?_⟩
    · change commandId ∈ (s.commands.set key record).keys
      rw [hset]
      simp
    · rw [behind_eq (s:={ s with commands := s.commands.set key record }) hset hpre,
        List.filter_append,List.mem_append] at hother
      rcases hother with hother | hother
      · refine h.behind other ?_
        rw [behind_eq hsplit hpre]
        exact hother
      · rw [List.mem_filter,List.mem_singleton] at hother
        obtain ⟨rfl,hother⟩ := hother
        rcases hkey with rfl | hkey | hkey
        · exact absurd rfl hne
        · exact hkey
        · simp [hkey] at hother

theorem Held.activate (h : s.Held commandId finished) (names : Option (Finset String))
    (hne : commandId ≠ key) :
    Held { s with activeOperations := s.activeOperations.set key names } commandId finished := by
  obtain ⟨pre,post,hkeys,hpre,-⟩ := exists_split h.cached
  refine ⟨h.cached,?_,fun other hother => ?_⟩
  · change (s.activeOperations.set key names).get? commandId = none
    rw [Dict.get?_set_of_ne _ _ hne]
    exact h.inactive
  · rw [behind_eq (s:={ s with activeOperations := s.activeOperations.set key names }) hkeys hpre,
      List.mem_filter] at hother
    refine h.behind other ?_
    rw [behind_eq hkeys hpre,List.mem_filter]
    refine ⟨hother.1,?_⟩
    have hcontains : (s.activeOperations.set key names).contains other = false := by
      simpa using hother.2
    rw [Dict.contains,Dict.get?_set] at hcontains
    split_ifs at hcontains
    · simp at hcontains
    · simpa [Dict.contains] using hcontains

theorem Held.finishOperation (h : s.Held commandId finished) (hkey : key = commandId ∨ key ∈ finished) :
    commandCacheLimit ≤ finished.card ∨ (s.finishOperation key).Held commandId finished :=
  ((h.popActive hkey).congr (dispatchIdleRecovery_commands _)
    (dispatchIdleRecovery_activeOperations _)).trim

theorem Held.fail (h : s.Held commandId finished) (q : Request) (exception : String)
    (hkey : q.commandId = commandId ∨ q.commandId ∈ finished) :
    commandCacheLimit ≤ finished.card ∨ (s.fail q exception).Held commandId finished := by
  unfold Coordinator.fail
  split
  · exact Or.inr h
  · exact (h.set _ (hkey.imp_right Or.inl)).finishOperation hkey

theorem Held.store (h : s.Held commandId finished) (record : Record)
    (hkey : key = commandId ∨ key ∈ finished) :
    commandCacheLimit ≤ finished.card ∨
      ({ s with commands := s.commands.set key record }.finishOperation key).Held commandId finished :=
  (h.set record (hkey.imp_right Or.inl)).finishOperation hkey

/-- A completion finishes the operation, stores a record of the submission and finishes once
more. -/
theorem complete_shape (s : Coordinator) (q : Request) (result : Result) :
    ∃ (middle : Coordinator) (record : Record),
      middle.commands = (s.finishOperation q.commandId).commands ∧
      middle.activeOperations = s.activeOperations.pop q.commandId ∧
      record.controller = q.controller ∧
      s.complete q result = { middle with
        commands := middle.commands.set q.commandId record }.finishOperation q.commandId := by
  refine ⟨_,_,?_,?_,?_,rfl⟩
  · simp [apply,finishOperation,trim,completed,popActive]
  · simp [apply]
  · rfl

theorem Held.complete (h : s.Held commandId finished) (q : Request) (result : Result)
    (hkey : q.commandId = commandId ∨ q.commandId ∈ finished) :
    commandCacheLimit ≤ finished.card ∨ (s.complete q result).Held commandId finished := by
  obtain ⟨middle,record,hcommands,hactive,-,heq⟩ := complete_shape s q result
  rw [heq]
  rcases h.finishOperation hkey with hlimit | hfinished
  · exact Or.inl hlimit
  · exact Held.store (hfinished.congr hcommands (by simp [hactive])) _ hkey

theorem Held.accept (h : s.Held commandId finished) {q : Request}
    (haccepted : (s.submit q).1 = .accepted) : (s.accept q).Held commandId finished := by
  have hnone := (accepted_iff.mp haccepted).2.1
  have hne : commandId ≠ q.commandId := by
    rintro rfl
    exact (Dict.get?_eq_none_iff _ _).mp hnone h.cached
  have hactive := h.activate q.conflictNames hne
  have hcontains : (s.activeOperations.set q.commandId q.conflictNames).contains q.commandId = true := by
    simp [Dict.contains]
  exact (hactive.set (s.progressRecord q) (Or.inr (Or.inr hcontains))).congr rfl rfl

/-- A command that ends with no finished one behind it is held from then on. -/
theorem held_popActive (hcached : commandId ∈ s.commands.keys) (hbehind : s.behind commandId = []) :
    (s.popActive commandId).Held commandId ∅ := by
  obtain ⟨pre,post,hkeys,hpre,hpost⟩ := exists_split hcached
  have hpopped : (s.popActive commandId).commands.keys = pre++commandId :: post := hkeys
  refine ⟨hcached,Dict.get?_pop_self _ _,fun other hother => ?_⟩
  rw [behind_eq hpopped hpre,List.mem_filter] at hother
  have hne : other ≠ commandId := fun he => hpost (he ▸ hother.1)
  have hactive : (s.activeOperations.pop commandId).contains other =
      s.activeOperations.contains other := by
    rw [Dict.contains,Dict.contains,Dict.get?_pop_of_ne _ hne]
  have hmem : other ∈ s.behind commandId := by
    rw [behind_eq hkeys hpre,List.mem_filter,← hactive]
    exact hother
  rw [hbehind] at hmem
  cases hmem

theorem held_of_limit (h : commandCacheLimit ≤ (∅ : Finset String).card ∨ s.Held commandId ∅) :
    s.Held commandId ∅ :=
  h.resolve_left (by simp [commandCacheLimit])

theorem held_finishOperation (hcached : commandId ∈ s.commands.keys)
    (hbehind : s.behind commandId = []) : (s.finishOperation commandId).Held commandId ∅ :=
  held_of_limit ((held_popActive hcached hbehind).congr (dispatchIdleRecovery_commands _)
    (dispatchIdleRecovery_activeOperations _)).trim

theorem held_fail {q : Request} (exception : String) (hcached : q.commandId ∈ s.commands.keys)
    (hbehind : s.behind q.commandId = []) : (s.fail q exception).Held q.commandId ∅ := by
  have hcontains := (Dict.contains_iff_mem_keys _ _).mpr hcached
  obtain ⟨record,hrecord⟩ := (Dict.contains_iff _ _).mp hcontains
  have hkeys := fun record : Record => Dict.keys_set_of_contains s.commands record hcontains
  unfold Coordinator.fail
  rw [hrecord]
  refine held_finishOperation ?_ ?_
  · change _ ∈ (s.commands.set _ _).keys
    rw [hkeys]
    exact hcached
  · unfold behind at hbehind ⊢
    rw [hkeys]
    exact hbehind

/-- The final record stands at the end of the cache if trimming has deleted the one before. -/
theorem held_append (record : Record) (hcached : commandId ∉ s.commands.keys)
    (hinactive : s.activeOperations.get? commandId = none) :
    Held { s with commands := s.commands.set commandId record } commandId ∅ := by
  have hcontains : s.commands.contains commandId = false := by
    rw [Dict.contains_eq_false_iff]
    exact (Dict.get?_eq_none_iff _ _).mpr hcached
  have hkeys : (s.commands.set commandId record).keys = s.commands.keys++commandId :: [] :=
    Dict.keys_set_of_new _ _ hcontains
  refine ⟨?_,hinactive,fun other hother => ?_⟩
  · change commandId ∈ (s.commands.set commandId record).keys
    rw [hkeys]
    simp
  · rw [behind_eq (s:={ s with commands := s.commands.set commandId record }) hkeys hcached] at hother
    cases hother

theorem behind_popActive (s : Coordinator) (hcached : commandId ∈ s.commands.keys) :
    (s.popActive commandId).behind commandId = s.behind commandId := by
  obtain ⟨pre,post,hkeys,hpre,hpost⟩ := exists_split hcached
  have hpopped : (s.popActive commandId).commands.keys = pre++commandId :: post := hkeys
  rw [behind_eq hpopped hpre,behind_eq hkeys hpre]
  refine List.filter_congr fun other hother => ?_
  have hne : other ≠ commandId := fun he => hpost (he ▸ hother)
  change (!(s.activeOperations.pop commandId).contains other) = _
  rw [Dict.contains,Dict.contains,Dict.get?_pop_of_ne _ hne]

theorem not_mem_finishOperation (hcached : commandId ∈ s.commands.keys)
    (hbehind : commandCacheLimit ≤ (s.behind commandId).length) :
    commandId ∉ (s.finishOperation commandId).commands.keys := by
  set popped := (s.popActive commandId).dispatchIdleRecovery with hpopped
  have hcommands : popped.commands = s.commands := dispatchIdleRecovery_commands _
  have hactive : popped.activeOperations = s.activeOperations.pop commandId :=
    dispatchIdleRecovery_activeOperations _
  have hevicted : commandId ∈ popped.evicted := by
    rw [mem_evicted_iff (hcommands ▸ hcached) (by rw [hactive]; exact Dict.get?_pop_self _ _)]
    have hsame : popped.behind commandId = (s.popActive commandId).behind commandId := by
      unfold behind
      rw [hcommands,hactive]
      rfl
    rw [hsame,behind_popActive s hcached]
    exact hbehind
  change commandId ∉ popped.trim.commands.keys
  rw [trim_keys,List.mem_filter]
  simp [hevicted]

theorem held_complete {q : Request} (result : Result) (hcached : q.commandId ∈ s.commands.keys)
    (hbehind : s.behind q.commandId = [] ∨ commandCacheLimit ≤ (s.behind q.commandId).length) :
    (s.complete q result).Held q.commandId ∅ := by
  obtain ⟨middle,record,hcommands,hactive,-,heq⟩ := complete_shape s q result
  rw [heq]
  rcases hbehind with hbehind | hbehind
  · have hfinished := (held_finishOperation hcached hbehind).congr hcommands (by simp [hactive])
    exact held_of_limit (Held.store hfinished _ (Or.inl rfl))
  · have hgone : q.commandId ∉ middle.commands.keys := by
      rw [hcommands]
      exact not_mem_finishOperation hcached hbehind
    have hinactive : middle.activeOperations.get? q.commandId = none := by
      rw [hactive]
      exact Dict.get?_pop_self _ _
    exact held_of_limit (Held.finishOperation (held_append record hgone hinactive) (Or.inl rfl))

theorem get?_of_finishOperation {record : Record}
    (h : (s.finishOperation commandId).commands.get? key = some record) :
    s.commands.get? key = some record := by
  unfold finishOperation at h
  rw [get?_trim] at h
  split_ifs at h
  simpa [Coordinator.popActive] using h

theorem get?_of_fail {q : Request} {exception : String} {record : Record}
    (h : (s.fail q exception).commands.get? key = some record) :
    s.commands.get? key = some record ∨ key = q.commandId ∧ ∃ old,
      s.commands.get? key = some old ∧ record.controller = old.controller := by
  unfold Coordinator.fail at h
  split at h
  · exact Or.inl h
  · rename_i old hold
    have hset := get?_of_finishOperation h
    rcases (Dict.get?_set_eq_some _ _ _ _ _).mp hset with ⟨rfl,rfl⟩ | ⟨-,hkey⟩
    · exact Or.inr ⟨rfl,old,hold,rfl⟩
    · exact Or.inl hkey

theorem get?_of_complete {q : Request} {result : Result} {record : Record}
    (h : (s.complete q result).commands.get? key = some record) :
    s.commands.get? key = some record ∨
      key = q.commandId ∧ record.controller = q.controller := by
  obtain ⟨middle,final,hcommands,-,hcontroller,heq⟩ := complete_shape s q result
  rw [heq] at h
  have hset := get?_of_finishOperation h
  rcases (Dict.get?_set_eq_some _ _ _ _ _).mp hset with ⟨rfl,rfl⟩ | ⟨-,hkey⟩
  · exact Or.inr ⟨rfl,hcontroller⟩
  · rw [hcommands] at hkey
    exact Or.inl (get?_of_finishOperation hkey)

end Coordinator

end Coordination
end FakeNetNG
