import Interpose.Proofs.History

/-! The law of consults, read off a history alone: when a callback is asked, what it is told, whose
answers come when, and what the caches hold after all of it. -/

namespace Interpose

def Event.isEvaluated : Event → Bool
  | .evaluated _ _ => true
  | _ => false

/-- What the cache of a unit holds after the answers of a history. -/
def recorded (module : HookModule) (code : CodeId) (events : List Event) : CacheState :=
  if hasMiss module code events then .skip
  else if hits module code events = [] then .empty
  else .entries (hits module code events)

theorem oldestFirst_recorded {module : HookModule} {code : CodeId} {events : List Event}
    (wanted : hasMiss module code events = false) :
    (recorded module code events).oldestFirst = hits module code events := by
  unfold recorded
  rw [wanted, if_neg Bool.false_ne_true]
  split
  next none => exact none.symm
  next => rfl

theorem length_recorded {module : HookModule} {code : CodeId} {events : List Event}
    (wanted : hasMiss module code events = false) :
    (recorded module code events).length = (hits module code events).length := by
  rw [CacheState.length, oldestFirst_recorded wanted]

@[simp] theorem isSkip_recorded (module : HookModule) (code : CodeId) (events : List Event) :
    (recorded module code events).isSkip = hasMiss module code events := by
  unfold recorded
  cases hasMiss module code events with
  | true => rfl
  | false =>
    rw [if_neg Bool.false_ne_true]
    split <;> rfl

/-- Events that commit nothing leave what is recorded as it is. -/
theorem recorded_append {module : HookModule} {code : CodeId} {events later : List Event}
    (unhit : hits module code later = []) (unmissed : hasMiss module code later = false) :
    recorded module code (events ++ later) = recorded module code events := by
  simp only [recorded, hits_append, hasMiss_append, unhit, unmissed, List.append_nil,
    Bool.or_false]

theorem recorded_hit {module : HookModule} {code : CodeId} {events later : List Event}
    {replacement : Replacement} (wanted : hasMiss module code events = false)
    (hit : hits module code later = [replacement]) (unmissed : hasMiss module code later = false) :
    recorded module code (events ++ later) =
      (recorded module code events).prepend replacement := by
  rw [CacheState.prepend, oldestFirst_recorded wanted]
  simp [recorded, hit, unmissed, wanted]

theorem recorded_miss {module : HookModule} {code : CodeId} {events later : List Event}
    (missed : hasMiss module code later = true) :
    recorded module code (events ++ later) = .skip := by
  simp only [recorded, hasMiss_append, missed, Bool.or_true, if_true]

theorem hits_of_evaluated {events : List Event} (evaluated : ∀ event ∈ events, event.isEvaluated)
    (module : HookModule) (code : CodeId) : hits module code events = [] := by
  rw [hits, List.filterMap_eq_nil_iff]
  intro event member
  cases event with
  | evaluated id frame => rfl
  | _ => cases evaluated _ member

theorem hasMiss_of_evaluated {events : List Event}
    (evaluated : ∀ event ∈ events, event.isEvaluated) (module : HookModule) (code : CodeId) :
    hasMiss module code events = false := by
  rw [hasMiss, List.any_eq_false]
  intro event member
  cases event with
  | evaluated id frame => exact Bool.false_ne_true
  | _ => cases evaluated _ member

/-- A consult that fails leaves no trace in the caches. -/
theorem recorded_failed {module : HookModule} {before during : List Event} {id : ThreadId}
    {callback : CallbackId} {place : HookModule} {frame : Frame} {size : Nat} {code : CodeId}
    {fault : Fault} (evaluated : ∀ event ∈ during, event.isEvaluated) (unit : CodeId) :
    recorded module unit (before ++ .asked id callback place frame size ::
      (during ++ [.answered id place code (.error fault)])) = recorded module unit before := by
  apply recorded_append
  · rw [← List.singleton_append, hits_append, hits_append, hits_of_evaluated evaluated]
    rfl
  · rw [← List.singleton_append, hasMiss_append, hasMiss_append, hasMiss_of_evaluated evaluated]
    rfl

/-- A history in which callbacks are consulted under a module one at a time, each about a frame that
was just intercepted, and about a unit only until one of them left it alone. What happens under
other modules does not matter. -/
structure Conforms (module : HookModule) (events : List Event) : Prop where
  /-- A callback is asked about a frame that was just intercepted, and told how many replacements
  were given for its unit so far. Nobody left the unit alone before. -/
  asked : ∀ before id callback frame size after,
    events = before ++ .asked id callback module frame size :: after →
    size = (hits module frame.code.id before).length ∧
      hasMiss module frame.code.id before = false ∧
      ∃ earlier original heap,
        before = earlier ++ [.intercepted id module original] ∧ frame = original.materialize heap
  /-- What comes after the interception of a frame is a consult about it, unless its unit is to be
  left alone; then the engine evaluates it. -/
  intercepted : ∀ before id frame event after,
    events = before ++ .intercepted id module frame :: event :: after →
    if hasMiss module frame.code.id before then event = .evaluated id frame
    else
      ∃ callback heap,
        event = .asked id callback module (frame.materialize heap)
          (hits module frame.code.id before).length
  /-- An answer is that to the last question, and no other question came in between. -/
  answered : ∀ before id code answer after,
    events = before ++ .answered id module code answer :: after →
    ∃ earlier callback frame size during,
      before = earlier ++ .asked id callback module frame size :: during ∧
      frame.code.id = code ∧ ∀ event ∈ during, event.isEvaluated

namespace Conforms
variable {module : HookModule} {events : List Event}

theorem nil (module : HookModule) : Conforms module [] := by
  constructor <;> intro before
  · intro _ _ _ _ _ split
    simp at split
  · intro _ _ _ _ split
    simp at split
  · intro _ _ _ _ split
    simp at split

private theorem split_snoc {last item : Event} {before after : List Event}
    (split : events ++ [last] = before ++ item :: after) :
    (after = [] ∧ item = last ∧ before = events) ∨
      ∃ rest, after = rest ++ [last] ∧ events = before ++ item :: rest := by
  rcases after.eq_nil_or_concat with rfl | ⟨rest, final, rfl⟩
  · obtain ⟨same, final⟩ := List.append_inj' split rfl
    exact .inl ⟨rfl, (List.singleton_inj.mp final).symm, same.symm⟩
  · rw [List.concat_eq_append, ← List.cons_append, ← List.append_assoc] at split
    obtain ⟨same, final⟩ := List.append_inj' split rfl
    rw [List.concat_eq_append, List.singleton_inj.mp final]
    exact .inr ⟨rest, rfl, same⟩

/-- A history goes on lawfully when its next event is lawful after all that came before. -/
theorem snoc {last : Event} (conforms : Conforms module events)
    (asked : ∀ id callback frame size, last = .asked id callback module frame size →
      size = (hits module frame.code.id events).length ∧
        hasMiss module frame.code.id events = false ∧
        ∃ earlier original heap,
          events = earlier ++ [.intercepted id module original] ∧ frame = original.materialize heap)
    (intercepted : ∀ earlier id frame, events = earlier ++ [.intercepted id module frame] →
      if hasMiss module frame.code.id earlier then last = .evaluated id frame
      else
        ∃ callback heap,
          last = .asked id callback module (frame.materialize heap)
            (hits module frame.code.id earlier).length)
    (answered : ∀ id code answer, last = .answered id module code answer →
      ∃ earlier callback frame size during,
        events = earlier ++ .asked id callback module frame size :: during ∧
        frame.code.id = code ∧ ∀ event ∈ during, event.isEvaluated) :
    Conforms module (events ++ [last]) where
  asked before id callback frame size after split := by
    rcases split_snoc split with ⟨_, item, rfl⟩ | ⟨rest, _, earlier⟩
    · exact asked id callback frame size item.symm
    · exact conforms.asked before id callback frame size rest earlier
  intercepted before id frame event after split := by
    rcases split_snoc split with ⟨impossible, _, _⟩ | ⟨rest, followed, earlier⟩
    · cases impossible
    · cases rest with
      | nil =>
        cases followed
        exact intercepted before id frame earlier
      | cons following rest =>
        cases followed
        exact conforms.intercepted before id frame event rest earlier
  answered before id code answer after split := by
    rcases split_snoc split with ⟨_, item, rfl⟩ | ⟨rest, _, earlier⟩
    · exact answered id code answer item.symm
    · exact conforms.answered before id code answer rest earlier

end Conforms

end Interpose
