import Qoms.Shared
import Mathlib.Order.Lattice

/-!
# Reading through a cache with expiry

A service answers reads of its store through a cache. A read that finds no entry asks the
store one query after another (`Plan`), and puts the value it made into the cache, where it
stays for a time (`ttl`). Between any two of its calls other processes read and write, keys
are deleted, and time passes (`act`).

So a value can be made of several states of the store, and an entry can be outdated from the
start, when a write came between the queries and the fill. But each state a value was made of
is of a moment after the read began. If the calls of a read follow within a delay, then an
answer is at no moment made of states older than the time to live and the delay
(`answered_run`).
-/

set_option autoImplicit false

namespace Qoms

/-! ## Plans -/

/-- A read : queries, each of the store of its moment, then a value, which the cache keeps or
not. -/
inductive Plan (D V : Type)
  | done (value : V) (keep : Bool)
  | ask (next : D → Plan D V)

/-- The plan makes the value when each query meets a state in `M`. -/
inductive Plan.Gives {D V : Type} (M : D → Prop) : Plan D V → V → Bool → Prop
  | done (value : V) (keep : Bool) : Gives M (.done value keep) value keep
  | ask {next : D → Plan D V} {value : V} {keep : Bool} (d : D) (hd : M d)
      (h : Gives M (next d) value keep) : Gives M (.ask next) value keep

theorem Plan.Gives.mono {D V : Type} {M N : D → Prop} {plan : Plan D V} {value : V} {keep : Bool}
    (h : plan.Gives M value keep) (hMN : ∀ d, M d → N d) : plan.Gives N value keep := by
  induction h with
  | done value keep => exact .done value keep
  | ask d hd _ ih => exact .ask d (hMN d hd) ih

/-- What is left of the plan when its first queries met states in `M`. -/
def Plan.Leaves {D V : Type} (M : D → Prop) (plan rest : Plan D V) : Prop :=
  ∀ N : D → Prop, (∀ d, M d → N d) → ∀ value keep,
    rest.Gives N value keep → plan.Gives N value keep

theorem Plan.Leaves.mono {D V : Type} {M N : D → Prop} {plan rest : Plan D V}
    (h : plan.Leaves M rest) (hMN : ∀ d, M d → N d) : plan.Leaves N rest :=
  fun L hNL value keep => h L (fun d hd => hNL d (hMN d hd)) value keep

theorem Plan.Leaves.ask {D V : Type} {M : D → Prop} {plan : Plan D V} {next : D → Plan D V}
    (h : plan.Leaves M (.ask next)) {d : D} (hd : M d) : plan.Leaves M (next d) :=
  fun N hMN value keep hrest => h N hMN value keep (.ask d (hMN d hd) hrest)

/-! ## Readers and writers -/

/-- A store with the steps of its writers, what a read of a key may ask, and how long the
cache keeps a key. -/
structure CachedStore (A D Q K V : Type) where
  act : A → D → Q → D × Q
  plans : K → Plan D V → Prop
  ttl : K → ℕ

/-- The store, the entries with the times they expire at, and the time. -/
structure Timed (D K V : Type) where
  store : D
  cache : K → Option (V × ℤ)
  now : ℤ

/-- Where a read stands : it has queries left, or a value to put into the cache; `began` is
when it looked for an entry. -/
inductive Reader (D K V : Type)
  | idle
  | reading (key : K) (began : ℤ) (plan : Plan D V)
  | filling (key : K) (began : ℤ) (value : V)
  | answered (key : K) (time : ℤ) (value : V)
  | failed

/-- Time passes, a writer takes a step, keys go, or a read takes one : it looks for an entry,
asks the next query, fills, or fails. -/
inductive CacheAction (A D K V : Type)
  | pass (duration : ℕ)
  | write (a : A)
  | drop (keys : K → Bool)
  | look (key : K) (plan : Plan D V)
  | query
  | fill
  | abort

section

variable {A D Q K V : Type} (C : CachedStore A D Q K V)

/-- Where a read stands with what is left of its plan. -/
def Reader.after (key : K) (began now : ℤ) : Plan D V → Reader D K V
  | .done value true => .filling key began value
  | .done value false => .answered key now value
  | .ask next => .reading key began (.ask next)

/-- The value of an entry that is there. -/
def Timed.get (s : Timed D K V) (key : K) : Option V :=
  (s.cache key).bind fun entry => if s.now ≤ entry.2 then some entry.1 else none

/-- What a step does. -/
def CachedStore.step [DecidableEq K] : CacheAction A D K V → Timed D K V → Q × Reader D K V →
    Timed D K V × (Q × Reader D K V)
  | .pass duration, s, q => ({ s with now := s.now + duration }, q)
  | .write a, s, q =>
    let r := C.act a s.store q.1
    ({ s with store := r.1 }, (r.2, q.2))
  | .drop keys, s, q =>
    ({ s with cache := fun key => if keys key then none else s.cache key }, q)
  | .look key plan, s, (q, .idle) =>
    match s.get key with
    | some value => (s, (q, .answered key s.now value))
    | none => (s, (q, .after key s.now s.now plan))
  | .query, s, (q, .reading key began (.ask next)) =>
    (s, (q, .after key began s.now (next s.store)))
  | .fill, s, (q, .filling key _ value) =>
    ({ s with cache := Function.update s.cache key (some (value, s.now + C.ttl key)) },
      (q, .answered key s.now value))
  | .abort, s, (q, _) => (s, (q, .failed))
  | _, s, q => (s, q)

/-- A read asks what it may ask. -/
def CacheAction.Allowed : CacheAction A D K V → Prop
  | .look key plan => C.plans key plan
  | _ => True

/-- A query or a fill comes within the delay after its read began. -/
def Prompt (delay : ℕ) : CacheAction A D K V → Timed D K V → Q × Reader D K V → Prop
  | .query, s, (_, .reading _ began _) => s.now ≤ began + delay
  | .fill, s, (_, .filling _ began _) => s.now ≤ began + delay
  | _, _, _ => True

/-! ## What the values were made of -/

/-- The store was `d` at some moment between two times. -/
def During (H : ℤ → D → Prop) (start stop : ℤ) (d : D) : Prop :=
  ∃ t, start ≤ t ∧ t ≤ stop ∧ H t d

theorem During.mono {H H' : ℤ → D → Prop} {start stop start' stop' : ℤ} {d : D}
    (h : During H start stop d) (hH : ∀ t d, H t d → H' t d) (hstart : start' ≤ start)
    (hstop : stop ≤ stop') : During H' start' stop' d := by
  obtain ⟨t, hle, hle', ht⟩ := h
  exact ⟨t, hstart.trans hle, hle'.trans hstop, hH t d ht⟩

/-- A read of the key made the value of states between the two times. -/
def CachedStore.Makes (H : ℤ → D → Prop) (key : K) (start stop : ℤ) (value : V) (keep : Bool) :
    Prop :=
  ∃ plan, C.plans key plan ∧ plan.Gives (During H start stop) value keep

variable {C} in
theorem CachedStore.Makes.mono {H H' : ℤ → D → Prop} {key : K} {start stop start' stop' : ℤ}
    {value : V} {keep : Bool} (h : C.Makes H key start stop value keep)
    (hH : ∀ t d, H t d → H' t d) (hstart : start' ≤ start) (hstop : stop ≤ stop') :
    C.Makes H' key start' stop' value keep := by
  obtain ⟨plan, hplan, hgives⟩ := h
  exact ⟨plan, hplan, hgives.mono fun d hd => hd.mono hH hstart hstop⟩

/-- An answer of a time was made within the delay before it, and within the time to live too
if it came from the cache. -/
def CachedStore.Recent (H : ℤ → D → Prop) (delay : ℕ) (key : K) (time : ℤ) (value : V) : Prop :=
  ∃ keep, C.Makes H key (time - delay - if keep then (C.ttl key : ℤ) else 0) time value keep

/-- What holds of a read. -/
def Reader.Sound (H : ℤ → D → Prop) (delay : ℕ) (now : ℤ) : Reader D K V → Prop
  | .reading key began rest => began ≤ now ∧
      ∃ plan, C.plans key plan ∧ plan.Leaves (During H began now) rest
  | .filling key began value => began ≤ now ∧ C.Makes H key began now value true
  | .answered key time value => time ≤ now ∧ C.Recent H delay key time value
  | _ => True

/-- An entry was put into the cache a time to live before it expires, by a read that made it
within the delay. -/
def Timed.Sound (H : ℤ → D → Prop) (delay : ℕ) (s : Timed D K V) : Prop :=
  ∀ key value expires, s.cache key = some (value, expires) → expires - C.ttl key ≤ s.now ∧
    C.Makes H key (expires - C.ttl key - delay) (expires - C.ttl key) value true

variable {C} {H H' : ℤ → D → Prop} {delay : ℕ} {now now' : ℤ}

theorem Reader.Sound.mono {r : Reader D K V} (h : r.Sound C H delay now)
    (hH : ∀ t d, H t d → H' t d) (hnow : now ≤ now') : r.Sound C H' delay now' := by
  cases r with
  | reading key began rest =>
    obtain ⟨hbegan, plan, hplan, hleaves⟩ := h
    exact ⟨hbegan.trans hnow, plan, hplan, hleaves.mono fun d hd => hd.mono hH le_rfl hnow⟩
  | filling key began value => exact ⟨h.1.trans hnow, h.2.mono hH le_rfl hnow⟩
  | answered key time value =>
    obtain ⟨htime, keep, hmakes⟩ := h
    exact ⟨htime.trans hnow, keep, hmakes.mono hH le_rfl le_rfl⟩
  | _ => trivial

/-- A read of a plan that is left. -/
theorem Reader.sound_after {key : K} {began : ℤ} {plan rest : Plan D V}
    (hplan : C.plans key plan) (hleaves : plan.Leaves (During H began now) rest)
    (hbegan : began ≤ now) (hprompt : now ≤ began + delay) :
    (Reader.after key began now rest).Sound C H delay now := by
  cases rest with
  | done value keep =>
    have hmakes : C.Makes H key began now value keep :=
      ⟨plan, hplan, hleaves _ (fun _ hd => hd) value keep (.done value keep)⟩
    cases keep with
    | true => exact ⟨hbegan, hmakes⟩
    | false =>
      refine ⟨le_rfl, false, hmakes.mono (fun _ _ h => h) ?_ le_rfl⟩
      simp only [Bool.false_eq_true, if_false]
      omega
  | ask next => exact ⟨hbegan, plan, hplan, hleaves⟩

/-! ## Runs -/

variable {s : Timed D K V} {q : Q × Reader D K V}

/-- What a read finds in the cache is recent. -/
theorem Timed.Sound.recent (h : s.Sound C H delay) {key : K} {value : V}
    (hget : s.get key = some value) : C.Recent H delay key s.now value := by
  obtain ⟨⟨value', expires⟩, hentry, hlive⟩ := Option.bind_eq_some_iff.mp hget
  split_ifs at hlive with hnow
  obtain rfl := Option.some.inj hlive
  obtain ⟨hfilled, hmakes⟩ := h key value' expires hentry
  refine ⟨true, hmakes.mono (fun _ _ h => h) ?_ hfilled⟩
  simp only [if_true]
  omega

/-- What a step does to the entries, and to its own read. -/
theorem sound_step [DecidableEq K] {a : CacheAction A D K V} (ha : a.Allowed C)
    (hprompt : Prompt delay a s q) (hnow : H s.now s.store) (hs : s.Sound C H delay)
    (hq : q.2.Sound C H delay s.now) :
    s.now ≤ (C.step a s q).1.now ∧ (C.step a s q).1.Sound C H delay ∧
      (C.step a s q).2.2.Sound C H delay (C.step a s q).1.now := by
  unfold CachedStore.step
  split
  · rename_i duration
    have hle : s.now ≤ s.now + duration := by omega
    refine ⟨hle, fun key value expires hentry => ?_, hq.mono (fun _ _ h => h) hle⟩
    obtain ⟨hfilled, hmakes⟩ := hs key value expires hentry
    exact ⟨hfilled.trans hle, hmakes⟩
  · exact ⟨le_rfl, hs, hq⟩
  · rename_i keys
    refine ⟨le_rfl, fun key value expires hentry => ?_, hq⟩
    dsimp only at hentry
    split_ifs at hentry
    exact hs key value expires hentry
  · rename_i key plan q'
    split
    · rename_i value hget
      exact ⟨le_rfl, hs, le_rfl, hs.recent hget⟩
    · have hsoon : s.now ≤ s.now + delay := by omega
      exact ⟨le_rfl, hs, Reader.sound_after ha (fun N _ value keep h => h) le_rfl hsoon⟩
  · rename_i q' key began next
    obtain ⟨hbegan, plan, hplan, hleaves⟩ := hq
    exact ⟨le_rfl, hs, Reader.sound_after hplan (hleaves.ask ⟨s.now, hbegan, le_rfl, hnow⟩) hbegan
      hprompt⟩
  · rename_i q' key began value
    obtain ⟨hbegan, hmakes⟩ := hq
    have hprompt' : s.now ≤ began + delay := hprompt
    refine ⟨le_rfl, fun key' value' expires hentry => ?_, le_rfl, true, ?_⟩
    · dsimp only at hentry
      rcases eq_or_ne key' key with rfl | hne
      · -- the entry that is filled
        rw [Function.update_self] at hentry
        obtain ⟨rfl, rfl⟩ := Prod.mk.inj (Option.some.inj hentry)
        have hfilled : s.now + (C.ttl key' : ℤ) - C.ttl key' = s.now := by omega
        rw [hfilled]
        exact ⟨le_rfl, hmakes.mono (fun _ _ h => h) (by omega) le_rfl⟩
      · rw [Function.update_of_ne hne] at hentry
        exact hs key' value' expires hentry
    · refine hmakes.mono (fun _ _ h => h) ?_ le_rfl
      have hnonneg : (0 : ℤ) ≤ C.ttl key := Int.natCast_nonneg _
      simp only [if_true]
      omega
  · exact ⟨le_rfl, hs, trivial⟩
  · exact ⟨le_rfl, hs, hq⟩

/-- Nothing in the cache, and no read under way. -/
def CachedStore.start (d : D) (q : Q) (now : ℤ) : Shared (Timed D K V) (Q × Reader D K V) :=
  ⟨⟨d, fun _ => none, now⟩, fun _ => (q, .idle)⟩

variable [DecidableEq K]

/-- The store was `d` at the time `t` of some moment of the run. -/
def CachedStore.Moment (C : CachedStore A D Q K V) (start : Shared (Timed D K V) (Q × Reader D K V))
    (as : List (ℕ × CacheAction A D K V)) (t : ℤ) (d : D) : Prop :=
  ∃ pre, pre <+: as ∧ (run (Shared.step C.step) start pre).db.now = t ∧
    (run (Shared.step C.step) start pre).db.store = d

/-- In a run whose reads ask what they may, and make their calls within the delay, every answer
was recent when it was given. -/
theorem answered_run {d : D} {q : Q} {now : ℤ} {as : List (ℕ × CacheAction A D K V)}
    (has : ∀ pa ∈ as, pa.2.Allowed C)
    (hprompt : EachStep (Shared.step C.step) (CachedStore.start d q now) as
      fun s pa => Prompt delay pa.2 s.db (s.requests pa.1)) :
    let s := run (Shared.step C.step) (CachedStore.start d q now) as
    s.db.Sound C (C.Moment (CachedStore.start d q now) as) delay ∧
      ∀ p, (s.requests p).2.Sound C (C.Moment (CachedStore.start d q now) as) delay s.db.now := by
  induction as using List.reverseRecOn with
  | nil => exact ⟨fun key value expires h => by simp [CachedStore.start] at h, fun _ => trivial⟩
  | append_singleton as pa ih =>
    obtain ⟨p, a⟩ := pa
    rw [eachStep_concat] at hprompt
    obtain ⟨hs, hreads⟩ := ih (fun pb hpb => has pb (by simp [hpb])) hprompt.1
    set s := run (Shared.step C.step) (CachedStore.start d q now) as with hrun
    -- the moments of the shorter run are moments of this one
    have hmoments : ∀ t d', C.Moment (CachedStore.start d q now) as t d' →
        C.Moment (CachedStore.start d q now) (as ++ [(p, a)]) t d' :=
      fun t d' ⟨pre, hpre, h⟩ => ⟨pre, hpre.trans (List.prefix_append _ _), h⟩
    have hnow : C.Moment (CachedStore.start d q now) (as ++ [(p, a)]) s.db.now s.db.store :=
      ⟨as, List.prefix_append _ _, by rw [← hrun], by rw [← hrun]⟩
    have hs' : s.db.Sound C (C.Moment (CachedStore.start d q now) (as ++ [(p, a)])) delay :=
      fun key value expires hentry =>
        ⟨(hs key value expires hentry).1, (hs key value expires hentry).2.mono hmoments le_rfl
          le_rfl⟩
    obtain ⟨hle, hstore, hread⟩ := sound_step (has (p, a) (by simp)) hprompt.2 hnow hs'
      ((hreads p).mono hmoments le_rfl)
    rw [run_append, run_cons, run_nil, ← hrun]
    refine ⟨hstore, fun p' => ?_⟩
    rcases eq_or_ne p' p with rfl | hne
    · rw [Shared.step_requests_self]
      exact hread
    · rw [Shared.step_requests_of_ne s a hne]
      exact (hreads p').mono hmoments hle

end

end Qoms
