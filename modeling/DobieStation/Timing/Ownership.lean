import DobieStation.Timing.Deadline

/-! # Every timer owns an event

Without any assumption on the clock: the event with the id that a timer holds is in the list, carries
the timer's number and the scheduler's own function, and no two events have the same id. It follows
from the `keys` of the events and the `labels` of the timers, which the operations of the other
components keep but for new events at the end of the list. -/

namespace DobieStation.Timing.Ownership

open DobieStation.Timing.Model DobieStation.Timing.Events DobieStation.Timing.Armed
open DobieStation.Timing.Timeliness

variable {s s' : Scheduler}

def keys (s : Scheduler) : List (ℕ × ℕ × ℤ) := s.events.map key

/-- The event and the callback of a timer. -/
def label (t : SchedulerTimer) : ℕ × ℤ := (t.eventId, t.callbackId)

def labels (s : Scheduler) : List (ℕ × ℤ) := s.timers.map label

structure Owned (s : Scheduler) : Prop where
  id_lt : ∀ k ∈ keys s, k.1 < s.nextEventId
  ids : ((keys s).map Prod.fst).Nodup
  owns : ∀ (id : ℕ) l, (labels s)[id]? = some l → (l.1, id, s.timerEventId) ∈ keys s
  owner : ∀ k ∈ keys s, k.2.2 = s.timerEventId → ∃ l, (labels s)[k.2.1]? = some l ∧ l.1 = k.1
  callback : ∀ l ∈ labels s, 0 ≤ l.2 ∧ l.2 < s.timerCallbacks

/-- An operation of another component: the timers, the functions and the callbacks are those that the
reset has made, and the scheduler's own function is left to the scheduler. -/
def Foreign (s : Scheduler) : Op → Prop
  | .addEvent f _ _ => f ≠ s.timerEventId
  | .createTimer _ _ _ | .registerFunction | .registerTimerCallback => False
  | _ => True

/-- The timers are as before, and there may be new events of other functions. -/
structure Grows (s s' : Scheduler) : Prop where
  labels : labels s' = labels s
  func : s'.timerEventId = s.timerEventId
  callbacks : s'.timerCallbacks = s.timerCallbacks
  next : s.nextEventId ≤ s'.nextEventId
  keys : ∃ new, keys s' = keys s ++ new ∧ (new.map Prod.fst).Nodup ∧
    ∀ k ∈ new, s.nextEventId ≤ k.1 ∧ k.1 < s'.nextEventId ∧ k.2.2 ≠ s.timerEventId

theorem Grows.refl (s : Scheduler) : Grows s s :=
  ⟨rfl, rfl, rfl, le_rfl, [], (List.append_nil _).symm, List.nodup_nil, by simp⟩

theorem Grows.trans {s'' : Scheduler} (h : Grows s s') (h' : Grows s' s'') : Grows s s'' := by
  obtain ⟨new, hk, hn, hnew⟩ := h.keys
  obtain ⟨new', hk', hn', hnew'⟩ := h'.keys
  have hle := h.next
  have hle' := h'.next
  refine ⟨h'.labels.trans h.labels, h'.func.trans h.func, h'.callbacks.trans h.callbacks,
    hle.trans hle', new ++ new', ?_, ?_, ?_⟩
  · rw [hk', hk, List.append_assoc]
  · rw [List.map_append, List.nodup_append]
    refine ⟨hn, hn', fun a ha b hb => ?_⟩
    obtain ⟨k, hka, rfl⟩ := List.mem_map.mp ha
    obtain ⟨k', hkb, rfl⟩ := List.mem_map.mp hb
    have := (hnew k hka).2.1
    have := (hnew' k' hkb).1
    omega
  · intro k hk
    rcases List.mem_append.mp hk with hk | hk
    · obtain ⟨h₁, h₂, h₃⟩ := hnew k hk
      exact ⟨h₁, by omega, h₃⟩
    · obtain ⟨h₁, h₂, h₃⟩ := hnew' k hk
      exact ⟨by omega, h₂, by rwa [h.func] at h₃⟩

/-- Nothing that matters here changes. -/
theorem grows_same (hk : keys s' = keys s) (hl : labels s' = labels s)
    (hf : s'.timerEventId = s.timerEventId) (hc : s'.timerCallbacks = s.timerCallbacks)
    (hn : s'.nextEventId = s.nextEventId) : Grows s s' :=
  ⟨hl, hf, hc, hn.ge, [], by rw [hk, List.append_nil], List.nodup_nil, by simp⟩

theorem Owned.grows (h : Owned s) (hg : Grows s s') : Owned s' := by
  obtain ⟨new, hk, hn, hnew⟩ := hg.keys
  have hle := hg.next
  refine ⟨fun k hmem => ?_, ?_, fun id l hl => ?_, fun k hmem hf => ?_, fun l hl => ?_⟩
  · rw [hk] at hmem
    rcases List.mem_append.mp hmem with hmem | hmem
    · have := h.id_lt k hmem
      omega
    · exact (hnew k hmem).2.1
  · rw [hk, List.map_append, List.nodup_append]
    refine ⟨h.ids, hn, fun a ha b hb => ?_⟩
    obtain ⟨k, hka, rfl⟩ := List.mem_map.mp ha
    obtain ⟨k', hkb, rfl⟩ := List.mem_map.mp hb
    have := h.id_lt k hka
    have := (hnew k' hkb).1
    omega
  · rw [hg.labels] at hl
    rw [hk, hg.func]
    exact List.mem_append_left _ (h.owns id l hl)
  · rw [hk] at hmem
    rw [hg.func] at hf
    rw [hg.labels]
    rcases List.mem_append.mp hmem with hmem | hmem
    · exact h.owner k hmem hf
    · exact absurd hf (hnew k hmem).2.2
  · rw [hg.labels] at hl
    rw [hg.callbacks]
    exact h.callback l hl

/-- What is left of a state: the owners, and which function and callbacks there are. -/
structure Kept (s s' : Scheduler) : Prop where
  owned : Owned s'
  func : s'.timerEventId = s.timerEventId
  callbacks : s'.timerCallbacks = s.timerCallbacks

theorem Kept.trans {s'' : Scheduler} (h : Kept s s') (h' : Kept s' s'') : Kept s s'' :=
  ⟨h'.owned, h'.func.trans h.func, h'.callbacks.trans h.callbacks⟩

theorem Owned.kept (h : Owned s) (hg : Grows s s') : Kept s s' :=
  ⟨h.grows hg, hg.func, hg.callbacks⟩

/-- A new timer with a new event of its own. -/
theorem Owned.adopt (h : Owned s) {c : ℤ} (hc : 0 ≤ c ∧ c < s.timerCallbacks)
    (hk : keys s' = keys s ++ [(s.nextEventId, s.timers.length, s.timerEventId)])
    (hl : labels s' = labels s ++ [(s.nextEventId, c)]) (hf : s'.timerEventId = s.timerEventId)
    (hcb : s'.timerCallbacks = s.timerCallbacks) (hn : s'.nextEventId = s.nextEventId + 1) :
    Owned s' := by
  have hlen : (labels s).length = s.timers.length := List.length_map _
  refine ⟨fun k hmem => ?_, ?_, fun id l hmem => ?_, fun k hmem hfunc => ?_, fun l hmem => ?_⟩
  · rw [hk] at hmem
    rw [hn]
    rcases List.mem_append.mp hmem with hmem | hmem
    · exact (h.id_lt k hmem).trans (Nat.lt_succ_self _)
    · rw [List.mem_singleton] at hmem
      subst hmem
      exact Nat.lt_succ_self _
  · rw [hk, List.map_append, List.nodup_append]
    refine ⟨h.ids, List.nodup_singleton _, fun a ha b hb => ?_⟩
    obtain ⟨k, hka, rfl⟩ := List.mem_map.mp ha
    have := h.id_lt k hka
    simp only [List.map_cons, List.map_nil, List.mem_singleton] at hb
    omega
  · rw [hl] at hmem
    rw [hk, hf]
    rcases lt_or_ge id s.timers.length with hid | hid
    · rw [List.getElem?_append_left (by omega)] at hmem
      exact List.mem_append_left _ (h.owns id l hmem)
    · rw [List.getElem?_append_right (by omega), hlen] at hmem
      obtain ⟨hlt, rfl⟩ := List.getElem?_eq_some_iff.mp hmem
      rw [List.length_singleton] at hlt
      obtain rfl : id = s.timers.length := by omega
      refine List.mem_append_right _ (List.mem_singleton.mpr ?_)
      rw [List.getElem_singleton]
  · rw [hk] at hmem
    rw [hf] at hfunc
    rw [hl]
    rcases List.mem_append.mp hmem with hmem | hmem
    · obtain ⟨l, hl, hlk⟩ := h.owner k hmem hfunc
      exact ⟨l, by rw [List.getElem?_append_left (List.getElem?_eq_some_iff.mp hl).1, hl], hlk⟩
    · rw [List.mem_singleton] at hmem
      subst hmem
      refine ⟨(s.nextEventId, c), ?_, rfl⟩
      change (labels s ++ _)[s.timers.length]? = _
      rw [List.getElem?_append_right (by omega), hlen, Nat.sub_self]
      rfl
  · rw [hl] at hmem
    rw [hcb]
    rcases List.mem_append.mp hmem with hmem | hmem
    · exact h.callback l hmem
    · rw [List.mem_singleton] at hmem
      subst hmem
      exact hc

/-! ### The operations -/

/-- A timer is replaced by one with the same label. -/
theorem labels_set {id : ℕ} {t t' : SchedulerTimer} (ht : s.timers[id]? = some t)
    (hl : label t' = label t) : (s.timers.set id t').map label = labels s := by
  rw [labels, List.map_set, hl]
  refine List.ext_getElem? fun i => ?_
  rw [List.getElem?_set]
  split_ifs with hi hlt
  · subst hi
    rw [List.getElem?_map, ht, Option.map_some]
  · rw [List.length_map] at hlt
    subst hi
    exact absurd (List.getElem?_eq_some_iff.mp ht).1 hlt
  · rfl

theorem advance_label (t : SchedulerTimer) (now : ℤ) : label (advanceCounter t now) = label t := by
  unfold advanceCounter
  dsimp only
  split_ifs <;> rfl

theorem grows_setTimer {id : ℕ} {t t' : SchedulerTimer} (ht : s.timers[id]? = some t)
    (hl : label t' = label t) : Grows s (setTimer s id t') :=
  grows_same rfl (labels_set ht hl) rfl rfl rfl

theorem keys_setTimeToRun (s : Scheduler) (i : ℕ) (time : ℤ) :
    keys (setTimeToRun s i time) = keys s := setTimeToRun_keys s i time

theorem grows_updateTimerEventTime {id : ℕ} (h : updateTimerEventTime s id = some s') :
    Grows s s' := by
  obtain ⟨t, d, i, -, -, -, -, rfl⟩ := updateTimerEventTime_eq_some h
  exact grows_same (setTimeToRun_keys s i _) rfl rfl rfl rfl

theorem grows_getTimerCounter {id : ℕ} {c : ℤ} (h : getTimerCounter s id = some (c, s')) :
    Grows s s' := by
  obtain ⟨t, ht, ⟨-, rfl⟩ | ⟨-, -, -, rfl⟩⟩ := getTimerCounter_eq_some h
  · exact Grows.refl s'
  · exact grows_setTimer ht (advance_label t _)

theorem grows_setTimerField {id : ℕ} {f : SchedulerTimer → SchedulerTimer}
    (hf : ∀ t, label (f t) = label t) (h : setTimerField s id f = some s') : Grows s s' := by
  obtain ⟨t, ht, ⟨-, rfl⟩ | ⟨-, -, -, h⟩⟩ := setTimerField_eq_some h
  · exact grows_setTimer ht (hf t)
  · have hl : label (f (advanceCounter t s.eeCycles.count)) = label t :=
      (hf _).trans (advance_label t _)
    exact (grows_setTimer ht hl).trans (grows_updateTimerEventTime h)

theorem grows_setTimerPause {id : ℕ} {p : Bool} (h : setTimerPause s id p = some s') :
    Grows s s' := by
  obtain ⟨t, ht, ⟨-, rfl⟩ | ⟨-, -, -, -, i, -, rfl⟩ | ⟨-, -, s₁, h₁, rfl⟩⟩ := setTimerPause_eq_some h
  · exact Grows.refl s'
  · have hmove : Grows s (setTimeToRun s i timestampMax) :=
      grows_same (setTimeToRun_keys s i _) rfl rfl rfl rfl
    exact hmove.trans (grows_setTimer (s := setTimeToRun s i timestampMax) ht (advance_label t _))
  · obtain ⟨t', d, i, -, -, -, -, rfl⟩ := updateTimerEventTime_eq_some h₁
    have hmove := grows_updateTimerEventTime h₁
    refine hmove.trans (grows_setTimer (t := t) ?_ rfl)
    exact ht

theorem grows_addEvent {f : ℤ} {d p n : ℕ} (hf : f ≠ s.timerEventId)
    (h : addEvent s f d p = some (n, s')) : Grows s s' := by
  obtain ⟨-, rfl⟩ := addEvent_eq_some h
  refine ⟨rfl, rfl, rfl, Nat.le_succ _, [(s.nextEventId, p, f)], ?_, List.nodup_singleton _, ?_⟩
  · rw [keys, List.map_append]
    rfl
  · intro k hk
    rw [List.mem_singleton] at hk
    subst hk
    exact ⟨le_rfl, Nat.lt_succ_self _, hf⟩

/-- **The operations of the other components.** -/
theorem op_grows {o : Op} (ho : Foreign s o) (h : o.apply s = some s') : Grows s s' := by
  cases o with
  | addEvent f d p =>
    obtain ⟨⟨n, s₁⟩, h₁, rfl⟩ := Option.map_eq_some_iff.mp h
    exact grows_addEvent ho h₁
  | createTimer c m p => exact absurd ho id
  | getTimerCounter id =>
    obtain ⟨⟨c, s₁⟩, h₁, rfl⟩ := Option.map_eq_some_iff.mp h
    exact grows_getTimerCounter h₁
  | setTimerCounter id v =>
    rw [Op.apply, Model.setTimerCounter] at h
    exact grows_setTimerField (fun _ => by simp only [label]) h
  | setTimerTarget id v =>
    rw [Op.apply, Model.setTimerTarget] at h
    exact grows_setTimerField (fun _ => by simp only [label]) h
  | setTimerClockrate id v =>
    rw [Op.apply, Model.setTimerClockrate] at h
    exact grows_setTimerField (fun _ => by simp only [label]) h
  | setTimerPause id p => exact grows_setTimerPause h
  | setTimerIntMask id canOverflow canTarget =>
    simp only [Op.apply, setTimerIntMask, Option.bind_eq_bind, Option.bind_eq_some_iff,
      Option.pure_def, Option.some.injEq] at h
    obtain ⟨t, ht, rfl⟩ := h
    exact grows_setTimer ht rfl
  | registerFunction => exact absurd ho id
  | registerTimerCallback => exact absurd ho id

/-- All of them, one after the other. -/
theorem ops_grow : ∀ (ops : List Op) {s s' : Scheduler}, (∀ s₁, s₁.timerEventId = s.timerEventId →
    ∀ o ∈ ops, Foreign s₁ o) → ops.foldlM Op.apply s = some s' → Grows s s'
  | [], s, s', _, h => by
    cases h
    exact Grows.refl s
  | o :: ops, s, s', ho, h => by
    rw [List.foldlM_cons, Option.bind_eq_bind, Option.bind_eq_some_iff] at h
    obtain ⟨s₁, h₁, h₂⟩ := h
    have hg := op_grows (ho s rfl o List.mem_cons_self) h₁
    refine hg.trans (ops_grow ops (fun s₂ hs₂ o' ho' => ?_) h₂)
    exact ho s₂ (hs₂.trans hg.func) o' (List.mem_cons_of_mem o ho')

/-! ### Running events -/

section Pass

variable {E : Type} {call : Callback E}

/-- The functions of the other components only make operations of theirs. -/
def KeepsOwners (call : Callback E) (Ok : ℤ → E → Prop) : Prop :=
  ∀ s env s' env', Ok s.timerEventId env → call s env = some (s', env') →
    Grows s s' ∧ Ok s.timerEventId env'

variable {Ok : ℤ → E → Prop}

/-- An event that belongs to no timer goes. -/
theorem Owned.erase (h : Owned s) {i : ℕ} {e : SchedulerEvent} (hi : s.events[i]? = some e)
    (hf : e.funcId ≠ s.timerEventId) : Owned { s with events := s.events.eraseIdx i } := by
  have hsub : ∀ k ∈ (s.events.eraseIdx i).map key, k ∈ keys s := fun k hk => by
    obtain ⟨e', he', rfl⟩ := List.mem_map.mp hk
    exact List.mem_map_of_mem (List.mem_of_mem_eraseIdx he')
  refine ⟨fun k hk => h.id_lt k (hsub k hk), ?_, fun id l hl => ?_, fun k hk => h.owner k (hsub k hk),
    h.callback⟩
  · exact h.ids.sublist (((List.eraseIdx_sublist _ _).map key).map _)
  · obtain ⟨e', he', hk⟩ := List.mem_map.mp (h.owns id l hl)
    obtain ⟨j, hj⟩ := List.mem_iff_getElem?.mp he'
    refine List.mem_map.mpr ⟨e', List.mem_eraseIdx_iff_getElem?.mpr ⟨j, ?_, hj⟩, hk⟩
    rintro rfl
    rw [hi] at hj
    cases hj
    simp only [key, Prod.mk.injEq] at hk
    exact hf hk.2.2

/-- **`restart_timer`** gives the timer a new event, and the one that was run goes. -/
theorem restart_owned (h : Owned s) {id i : ℕ} {old : ℕ}
    (hi : (keys s)[i]? = some (old, id, s.timerEventId)) (hs : restartTimer s id = some s') :
    Kept s { s' with events := s'.events.eraseIdx i } := by
  have hid : ∀ e ∈ s.events, e.eventId < s.nextEventId := fun e he =>
    h.id_lt (key e) (List.mem_map_of_mem he)
  obtain ⟨t, d, ht, -, -, rfl⟩ := restartTimer_eq_some hid hs
  refine ⟨?_, rfl, rfl⟩
  have hlt : id < s.timers.length := (List.getElem?_eq_some_iff.mp ht).1
  have hile : i < s.events.length := by
    have := (List.getElem?_eq_some_iff.mp hi).1
    rwa [keys, List.length_map] at this
  obtain ⟨l, hl, hold⟩ := h.owner _ (List.mem_of_getElem? hi) rfl
  dsimp only at hl hold
  have hlabel : (labels s)[id]? = some (label t) := by rw [labels, List.getElem?_map, ht]; rfl
  rw [hlabel] at hl
  cases hl
  have hkeys : List.map key ((s.events ++ [(⟨s.nextEventId, s.eeCycles.count + d, id,
      s.timerEventId⟩ : SchedulerEvent)]).eraseIdx i) =
      (keys s).eraseIdx i ++ [(s.nextEventId, id, s.timerEventId)] := by
    rw [List.eraseIdx_append_of_lt_length hile, List.map_append, keys, List.eraseIdx_map]
    rfl
  have hlabels : (s.timers.set id { t with eventId := s.nextEventId }).map label =
      (labels s).set id (s.nextEventId, t.callbackId) := by
    rw [List.map_set]
    rfl
  have hlt' : id < (labels s).length := by rwa [labels, List.length_map]
  -- the events that are left are those of the other timers
  have hne : ∀ k ∈ (keys s).eraseIdx i, k.1 ≠ old := by
    intro k hk
    obtain ⟨j, hji, hj⟩ := List.mem_eraseIdx_iff_getElem?.mp hk
    rintro rfl
    have h₁ : ((keys s).map Prod.fst)[j]? = some k.1 := by rw [List.getElem?_map, hj]; rfl
    have h₂ : ((keys s).map Prod.fst)[i]? = some k.1 := by rw [List.getElem?_map, hi]; rfl
    exact hji ((List.getElem?_inj (List.getElem?_eq_some_iff.mp h₁).1 h.ids).mp (h₁.trans h₂.symm))
  refine ⟨?_, ?_, ?_, ?_, ?_⟩
  · intro k hk
    rw [keys, hkeys] at hk
    rcases List.mem_append.mp hk with hk | hk
    · exact (h.id_lt k (List.mem_of_mem_eraseIdx hk)).trans (Nat.lt_succ_self _)
    · rw [List.mem_singleton] at hk
      subst hk
      exact Nat.lt_succ_self _
  · rw [keys, hkeys, List.map_append, List.nodup_append]
    refine ⟨h.ids.sublist ((List.eraseIdx_sublist _ _).map _), List.nodup_singleton _, ?_⟩
    intro a ha b hb
    obtain ⟨k, hk, rfl⟩ := List.mem_map.mp ha
    have := h.id_lt k (List.mem_of_mem_eraseIdx hk)
    simp only [List.map_cons, List.map_nil, List.mem_singleton] at hb
    omega
  · intro j l hl
    rw [labels, hlabels] at hl
    rw [keys, hkeys]
    rw [List.getElem?_set] at hl
    split_ifs at hl with hij
    · cases hl
      subst hij
      exact List.mem_append_right _ (List.mem_singleton_self _)
    · refine List.mem_append_left _ ?_
      obtain ⟨k, hk⟩ := List.mem_iff_getElem?.mp (h.owns j l hl)
      refine List.mem_eraseIdx_iff_getElem?.mpr ⟨k, ?_, hk⟩
      rintro rfl
      rw [hi] at hk
      cases hk
      exact hij rfl
  · intro k hk hf
    rw [keys, hkeys] at hk
    rw [labels, hlabels]
    rcases List.mem_append.mp hk with hleft | hk
    · obtain ⟨l, hl, hlk⟩ := h.owner k (List.mem_of_mem_eraseIdx hleft) hf
      refine ⟨l, ?_, hlk⟩
      rw [List.getElem?_set_ne]
      · exact hl
      · rintro rfl
        rw [hlabel] at hl
        cases hl
        exact hne k hleft (hlk.symm.trans hold)
    · rw [List.mem_singleton] at hk
      subst hk
      exact ⟨_, List.getElem?_set_self hlt', rfl⟩
  · intro l hl
    rw [labels, hlabels] at hl
    rcases List.mem_or_eq_of_mem_set hl with hl | rfl
    · exact h.callback l hl
    · exact h.callback (label t) (List.mem_of_getElem? hlabel)

/-- **`timer_event`**, run from the `i`-th place of the list. -/
theorem timerEvent_owned (hcall : KeepsOwners call Ok) {i : ℕ} {e : SchedulerEvent} {env env' : E}
    (h : Owned s) (hok : Ok s.timerEventId env) (hi : s.events[i]? = some e)
    (hf : e.funcId = s.timerEventId) (hs : timerEvent call s e.param env = some (s', env')) :
    Kept s { s' with events := s'.events.eraseIdx i } ∧ Ok s.timerEventId env' := by
  simp only [timerEvent, Option.bind_eq_bind, Option.bind_eq_some_iff, Option.pure_def,
    Option.some.injEq, Prod.mk.injEq] at hs
  obtain ⟨t, -, ⟨v, s₁⟩, h₁, t₁, -, ⟨s₂, env₂⟩, h₂, t₂, ht₂, ⟨s₄, env₄⟩, h₄, s₅, h₅, rfl, rfl⟩ := hs
  have g₁ := grows_getTimerCounter h₁
  have g₂ : Grows s s₂ ∧ Ok s.timerEventId env₂ := by
    split_ifs at h₂
    · rw [← g₁.func] at hok
      obtain ⟨hg, hok'⟩ := hcall _ _ _ _ hok h₂
      exact ⟨g₁.trans hg, g₁.func ▸ hok'⟩
    · cases h₂
      exact ⟨g₁, hok⟩
  have g₃ : Grows s₂ (setTimer s₂ e.param
      { t₂ with counter := int64 (t₂.counter - (t₂.overflowMask + 1)) }) := grows_setTimer ht₂ rfl
  have g₄ : Grows s s₄ ∧ Ok s.timerEventId env₄ := by
    have hfunc := g₂.1.func
    split_ifs at h₄
    · rw [← hfunc] at g₂
      obtain ⟨hg, hok'⟩ := hcall (setTimer s₂ e.param _) _ _ _ g₂.2 h₄
      exact ⟨(g₂.1.trans g₃).trans hg, hfunc ▸ hok'⟩
    · cases h₄
      exact ⟨g₂.1.trans g₃, g₂.2⟩
    · cases h₄
      exact g₂
  obtain ⟨new, hk, -, -⟩ := g₄.1.keys
  have hi' : (keys s₄)[i]? = some (e.eventId, e.param, s₄.timerEventId) := by
    have hki : (keys s)[i]? = some (key e) := by rw [keys, List.getElem?_map, hi]; rfl
    rw [hk, List.getElem?_append_left (List.getElem?_eq_some_iff.mp hki).1, hki, g₄.1.func, ← hf]
    rfl
  exact ⟨(h.kept g₄.1).trans (restart_owned (h.grows g₄.1) hi' h₅), g₄.2⟩

theorem runFunc_owned (hcall : KeepsOwners call Ok) {i : ℕ} {e : SchedulerEvent} {env env' : E}
    (h : Owned s) (hok : Ok s.timerEventId env) (hi : s.events[i]? = some e)
    (hs : runFunc call s e env = some (s', env')) :
    Kept s { s' with events := s'.events.eraseIdx i } ∧ Ok s.timerEventId env' := by
  unfold runFunc at hs
  split_ifs at hs with hf
  · exact timerEvent_owned hcall h hok hi hf hs
  · obtain ⟨hg, hok'⟩ := hcall _ _ _ _ hok hs
    obtain ⟨new, hk, -, -⟩ := hg.keys
    have hki : (keys s)[i]? = some (key e) := by rw [keys, List.getElem?_map, hi]; rfl
    have hki' : (keys s')[i]? = some (key e) := by
      rw [hk, List.getElem?_append_left (List.getElem?_eq_some_iff.mp hki).1, hki]
    rw [keys, List.getElem?_map, Option.map_eq_some_iff] at hki'
    obtain ⟨e', hi', hke⟩ := hki'
    simp only [key, Prod.mk.injEq] at hke
    refine ⟨⟨(h.grows hg).erase hi' ?_, hg.func, hg.callbacks⟩, hok'⟩
    rw [hke.2.2, hg.func]
    exact hf

/-- **A pass over the events** leaves every timer with an event. -/
theorem processLoop_owned (hcall : KeepsOwners call Ok) : ∀ (fuel i : ℕ) (newTime : ℤ)
    (s : Scheduler) (env : E) {r : Processed E}, Owned s → Ok s.timerEventId env →
    processLoop call fuel i newTime s env = some r → Kept s r.sched
  | 0, _, _, _, _, _, _, _, h => by simp [processLoop] at h
  | fuel + 1, i, newTime, s, env, r, ho, hok, h => by
    cases he : s.events[i]? with
    | none =>
      rw [processLoop_end he] at h
      cases h
      exact ho.kept (grows_same rfl rfl rfl rfl rfl)
    | some e =>
      by_cases hdue : e.timeToRun ≤ s.closestEventTime
      · obtain ⟨s₁, env₁, r₁, h₁, h₃, rfl⟩ := processLoop_run he hdue h
        obtain ⟨hk₁, hok₁⟩ := runFunc_owned hcall ho hok he h₁
        rw [← hk₁.func] at hok₁
        show Kept s r₁.sched
        exact hk₁.trans (processLoop_owned hcall fuel i newTime _ env₁ hk₁.owned hok₁ h₃)
      · rw [processLoop_keep he hdue] at h
        exact processLoop_owned hcall fuel (i + 1) _ s env ho hok h

end Pass

/-! ### Runs -/

/-- What happens between two resets. -/
def Ordinary (s : Scheduler) : Action → Prop
  | .op o => Foreign s o
  | .advance => True
  | .process _ script => ∀ ops ∈ script, ∀ o ∈ ops, Foreign s o

theorem foreign_congr (h : s'.timerEventId = s.timerEventId) (o : Op) : Foreign s' o ↔ Foreign s o := by
  cases o <;> simp [Foreign, h]

theorem scripted_keeps : KeepsOwners scripted fun func script =>
    ∀ ops ∈ script, ∀ s₁ : Scheduler, s₁.timerEventId = func → ∀ o ∈ ops, Foreign s₁ o := by
  intro s script s' script' hok h
  cases script with
  | nil =>
    cases h
    exact ⟨Grows.refl s, hok⟩
  | cons ops script =>
    obtain ⟨s₁, h₁, heq⟩ := Option.map_eq_some_iff.mp h
    cases heq
    refine ⟨ops_grow ops (hok ops List.mem_cons_self) h₁, fun ops' hops => ?_⟩
    exact hok ops' (List.mem_cons_of_mem ops hops)

theorem action_owned (h : Owned s) {a : Action} (ha : Ordinary s a) (hs : a.exec s = some s') :
    Kept s s' := by
  cases a with
  | op o => exact h.kept (op_grows ha hs)
  | advance =>
    obtain ⟨s₁, h₁, rfl⟩ := Option.map_eq_some_iff.mp hs
    unfold calculateRunCycles at h₁
    split_ifs at h₁ <;> cases h₁ <;> exact h.kept (grows_same rfl rfl rfl rfl rfl)
  | process fuel script =>
    obtain ⟨r, hr, rfl⟩ := Option.map_eq_some_iff.mp hs
    unfold processEvents at hr
    split_ifs at hr
    · refine processLoop_owned scripted_keeps _ _ _ _ _ h (fun ops hops s₁ hs₁ o ho => ?_) hr
      exact (foreign_congr hs₁ o).mpr (ha ops hops o ho)
    · cases hr
      exact h.kept (Grows.refl s)

end DobieStation.Timing.Ownership
