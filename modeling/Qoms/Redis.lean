import Mathlib.Algebra.Order.Ring.Rat
import Mathlib.Logic.Function.Basic

/-!
# Redis

The commands on hashes and sorted sets, on a key-value store whose keys can expire. Each command
is one atomic step and reads the store's clock, in milliseconds. A key is gone after the time
it expires at, and when its sorted set becomes empty; a command on a key that is gone finds
nothing, and one that writes creates it anew, without an expiry (`Slot.write`).

A key holds a hash or a sorted set. The two are kept in separate maps, so that no command meets
a value of the other kind.
-/

set_option autoImplicit false

namespace Qoms

/-! ## One key -/

/-- A value, and the time it expires at. -/
structure Entry (V : Type) where
  value : V
  expiresAt : Option ℤ

/-- What a key holds. -/
abbrev Slot (V : Type) := Option (Entry V)

namespace Slot

variable {V : Type}

/-- The entry as a command at the time `now` finds it. -/
def live (now : ℤ) (s : Slot V) : Slot V :=
  s.filter fun e => e.expiresAt.all fun t => decide (now ≤ t)

/-- The value a command at the time `now` finds. -/
def read (now : ℤ) (s : Slot V) : Option V :=
  (s.live now).map (·.value)

/-- Write a value computed from the one there is; the expiry stays. -/
def write (now : ℤ) (f : Option V → V) (s : Slot V) : Slot V :=
  some ⟨f (s.read now), (s.live now).bind (·.expiresAt)⟩

/-- `EXPIRE`, for a positive number of seconds. -/
def expire (now seconds : ℤ) (s : Slot V) : Slot V :=
  (s.live now).map fun e => { e with expiresAt := some (now + seconds * 1000) }

theorem live_some {now : ℤ} {v : V} {expiresAt : Option ℤ}
    (h : expiresAt.all (fun t => decide (now ≤ t)) = true) :
    live now (some ⟨v, expiresAt⟩) = some ⟨v, expiresAt⟩ :=
  Option.filter_some_pos h

theorem live_expired {now : ℤ} {v : V} {expiresAt : Option ℤ}
    (h : expiresAt.all (fun t => decide (now ≤ t)) = false) :
    live now (some ⟨v, expiresAt⟩) = none :=
  Option.filter_some_neg h

@[simp] theorem read_none (now : ℤ) : read now (none : Slot V) = none :=
  rfl

theorem read_some (now t : ℤ) (v : V) :
    read now (some ⟨v, some t⟩) = if now ≤ t then some v else none := by
  by_cases h : now ≤ t <;> simp [read, live, Option.filter, h]

/-- What is alive later is alive now. -/
theorem live_live {now later : ℤ} (hle : now ≤ later) (s : Slot V) :
    (s.live now).live later = s.live later := by
  rw [live, live, live, Option.filter_filter]
  congr 1
  funext e
  cases e.expiresAt with
  | none => rfl
  | some t =>
    have himp : later ≤ t → now ≤ t := hle.trans
    simpa using himp

/-- What was just written is there. -/
theorem live_write (now : ℤ) (f : Option V → V) (s : Slot V) :
    (s.write now f).live now = s.write now f := by
  have hexpiry : ((s.live now).bind (·.expiresAt)).all (fun t => decide (now ≤ t)) = true := by
    cases hlive : s.live now with
    | none => rfl
    | some e => exact (Option.filter_eq_some_iff.mp hlive).2
  exact live_some hexpiry

/-- A write followed by `EXPIRE`. -/
theorem expire_write (now seconds : ℤ) (f : Option V → V) (s : Slot V) :
    (s.write now f).expire now seconds =
      some ⟨f (s.read now), some (now + seconds * 1000)⟩ := by
  rw [expire, live_write]
  rfl

/-- A key whose value does not change is found as it is until it expires. -/
theorem read_some_or_none (later : ℤ) (v : V) (expiresAt : Option ℤ) :
    read later (some ⟨v, expiresAt⟩) = some v ∨ read later (some ⟨v, expiresAt⟩) = none := by
  cases h : expiresAt.all (fun t => decide (later ≤ t)) with
  | true => exact Or.inl (by rw [read, live_some h]; rfl)
  | false => exact Or.inr (by rw [read, live_expired h]; rfl)

theorem read_of_le {now later : ℤ} (hle : now ≤ later) (s : Slot V) :
    s.read later = s.read now ∨ s.read later = none := by
  rw [read, read, ← live_live hle s]
  cases s.live now with
  | none => exact Or.inl rfl
  | some e => exact read_some_or_none later e.value e.expiresAt

theorem read_write (now later : ℤ) (f : Option V → V) (s : Slot V) :
    (s.write now f).read later = some (f (s.read now)) ∨ (s.write now f).read later = none :=
  read_some_or_none later _ _

theorem read_expire (now later seconds : ℤ) (s : Slot V) :
    (s.expire now seconds).read later = s.read now ∨ (s.expire now seconds).read later = none := by
  rw [expire, read, read]
  cases s.live now with
  | none => exact Or.inl rfl
  | some e => exact read_some_or_none later e.value (some (now + seconds * 1000))

/-! ### A sorted set, the list of its members' scores -/

/-- The scores in the set. -/
def scores (now : ℤ) (s : Slot (List ℤ)) : List ℤ :=
  (s.read now).getD []

/-- Remove the scores from `lo` to `hi`; a set that becomes empty is gone. -/
def removeScores (now lo hi : ℤ) (s : Slot (List ℤ)) : Slot (List ℤ) :=
  (s.live now).bind fun e =>
    let rest := e.value.filter fun score => ¬(lo ≤ score ∧ score ≤ hi)
    if rest = [] then none else some { e with value := rest }

/-- Add a member with this score. -/
def addScore (now score : ℤ) (s : Slot (List ℤ)) : Slot (List ℤ) :=
  s.write now fun z => z.getD [] ++ [score]

/-- What a trim leaves, for a command at the same time or later. -/
theorem scores_removeScores_of_le {now later : ℤ} (hle : now ≤ later) (lo hi : ℤ)
    (s : Slot (List ℤ)) :
    (s.removeScores now lo hi).scores later =
      (s.scores later).filter fun score => ¬(lo ≤ score ∧ score ≤ hi) := by
  rw [scores, scores, read, read, ← live_live hle s, removeScores]
  cases hlive : s.live now with
  | none => rfl
  | some e =>
    rcases e with ⟨value, expiresAt⟩
    dsimp only [Option.bind_some]
    cases hexpiry : expiresAt.all (fun t => decide (later ≤ t)) with
    | true =>
      rw [live_some hexpiry]
      split_ifs with hempty
      · exact hempty.symm
      · rw [live_some hexpiry]
        rfl
    | false =>
      rw [live_expired hexpiry]
      split_ifs with hempty
      · rfl
      · rw [live_expired hexpiry]
        rfl

/-- What the set holds after a command, for a command at the same time. -/
theorem scores_removeScores (now lo hi : ℤ) (s : Slot (List ℤ)) :
    (s.removeScores now lo hi).scores now =
      (s.scores now).filter fun score => ¬(lo ≤ score ∧ score ≤ hi) :=
  scores_removeScores_of_le le_rfl lo hi s

/-- What is found after `ZADD` and `EXPIRE` : the members until the key expires, then none. -/
theorem scores_expire_addScore (now score seconds later : ℤ) (s : Slot (List ℤ)) :
    ((s.addScore now score).expire now seconds).scores later =
      if later ≤ now + seconds * 1000 then s.scores now ++ [score] else [] := by
  rw [addScore, expire_write, scores, read_some]
  split_ifs with h
  · rfl
  · rfl

theorem scores_addScore (now score : ℤ) (s : Slot (List ℤ)) :
    (s.addScore now score).scores now = s.scores now ++ [score] := by
  rw [addScore, scores, read, live_write]
  rfl

theorem scores_expire {now seconds : ℤ} (h : 0 ≤ seconds) (s : Slot (List ℤ)) :
    (s.expire now seconds).scores now = s.scores now := by
  rw [expire, scores, scores, read, read]
  cases s.live now with
  | none => rfl
  | some e =>
    have hle : now ≤ now + seconds * 1000 := by omega
    rw [Option.map_some, live_some (by simpa using hle)]
    rfl

/-- What is found later, and what the key takes with it if it expires. -/
theorem scores_of_le {now later : ℤ} (hle : now ≤ later) (s : Slot (List ℤ)) :
    s.scores now = s.scores later ++ if (s.live later).isNone then s.scores now else [] := by
  cases hlive : s.live later with
  | none =>
    have hgone : s.scores later = [] := by rw [scores, read, hlive]; rfl
    rw [hgone, Option.isNone_none, if_pos rfl, List.nil_append]
  | some e =>
    have hsame : s.read later = s.read now := by
      rcases read_of_le hle s with h | h
      · exact h
      · rw [read, hlive] at h
        cases h
    rw [scores, scores, hsame, Option.isNone_some, if_neg Bool.false_ne_true, List.append_nil]

/-- The scores stored, expired or not. -/
def stored (s : Slot (List ℤ)) : List ℤ :=
  (s.map (·.value)).getD []

theorem stored_live_sublist (now : ℤ) (s : Slot (List ℤ)) :
    (stored (s.live now)).Sublist s.stored := by
  cases h : s.live now with
  | none => exact List.nil_sublist _
  | some e =>
    obtain ⟨rfl, -⟩ := Option.filter_eq_some_iff.mp h
    exact List.Sublist.refl _

theorem scores_sublist (now : ℤ) (s : Slot (List ℤ)) : (s.scores now).Sublist s.stored :=
  stored_live_sublist now s

theorem stored_removeScores_sublist (now lo hi : ℤ) (s : Slot (List ℤ)) :
    (s.removeScores now lo hi).stored.Sublist s.stored := by
  refine List.Sublist.trans ?_ (stored_live_sublist now s)
  rw [removeScores]
  cases s.live now with
  | none => exact List.Sublist.refl _
  | some e =>
    dsimp only [Option.bind_some]
    split_ifs with hempty
    · exact List.nil_sublist _
    · exact List.filter_sublist

theorem stored_expire_sublist (now seconds : ℤ) (s : Slot (List ℤ)) :
    (s.expire now seconds).stored.Sublist s.stored := by
  refine List.Sublist.trans ?_ (stored_live_sublist now s)
  rw [expire]
  cases s.live now with
  | none => exact List.Sublist.refl _
  | some e => exact List.Sublist.refl _

theorem stored_addScore (now score : ℤ) (s : Slot (List ℤ)) :
    (s.addScore now score).stored = s.scores now ++ [score] :=
  rfl

end Slot

/-! ## The store -/

/-- The fields of a hash; a text that spells a number is that number. -/
abbrev Hash := String → Option ℚ

/-- `HSET` on the fields. -/
def Hash.set (h : Hash) (fields : List (String × ℚ)) : Hash :=
  fields.foldl (fun h f => Function.update h f.1 (some f.2)) h

/-- The keys and what they hold. -/
structure Redis where
  hashes : String → Slot Hash
  zsets : String → Slot (List ℤ)

namespace Redis

def empty : Redis :=
  ⟨fun _ => none, fun _ => none⟩

/-- `HGETALL` : no fields where there is no key. -/
def hgetall (redis : Redis) (key : String) (now : ℤ) : Hash :=
  ((redis.hashes key).read now).getD fun _ => none

/-- `HSET`. -/
def hset (redis : Redis) (key : String) (fields : List (String × ℚ)) (now : ℤ) : Redis :=
  { redis with
    hashes := Function.update redis.hashes key ((redis.hashes key).write now fun h =>
      (h.getD fun _ => none).set fields) }

/-- `ZREMRANGEBYSCORE`. -/
def zremrangebyscore (redis : Redis) (key : String) (lo hi now : ℤ) : Redis :=
  { redis with
    zsets := Function.update redis.zsets key ((redis.zsets key).removeScores now lo hi) }

/-- `ZCARD`. -/
def zcard (redis : Redis) (key : String) (now : ℤ) : ℕ :=
  ((redis.zsets key).scores now).length

/-- `ZADD` of a member that is not in the set. -/
def zadd (redis : Redis) (key : String) (score now : ℤ) : Redis :=
  { redis with zsets := Function.update redis.zsets key ((redis.zsets key).addScore now score) }

/-- `EXPIRE`. -/
def expire (redis : Redis) (key : String) (seconds now : ℤ) : Redis where
  hashes := Function.update redis.hashes key ((redis.hashes key).expire now seconds)
  zsets := Function.update redis.zsets key ((redis.zsets key).expire now seconds)

theorem hgetall_of_none {redis : Redis} {key : String} (h : redis.hashes key = none) (now : ℤ) :
    redis.hgetall key now = fun _ => none := by
  rw [hgetall, h, Slot.read_none, Option.getD_none]

/-- What a command finds later is what one finds now, or nothing. -/
theorem hgetall_of_le {now later : ℤ} (hle : now ≤ later) (redis : Redis) (key : String) :
    redis.hgetall key later = redis.hgetall key now ∨
      redis.hgetall key later = fun _ => none := by
  rcases Slot.read_of_le hle (redis.hashes key) with h | h
  · exact Or.inl (by rw [hgetall, hgetall, h])
  · exact Or.inr (by rw [hgetall, h, Option.getD_none])

theorem hgetall_hset (redis : Redis) (key : String) (fields : List (String × ℚ))
    (now later : ℤ) :
    (redis.hset key fields now).hgetall key later = (redis.hgetall key now).set fields ∨
      (redis.hset key fields now).hgetall key later = fun _ => none := by
  simp only [hgetall, hset, Function.update_self]
  rcases Slot.read_write now later (fun h : Option Hash => (h.getD fun _ => none).set fields)
    (redis.hashes key) with h | h
  · exact Or.inl (by rw [h, Option.getD_some])
  · exact Or.inr (by rw [h, Option.getD_none])

theorem hgetall_expire (redis : Redis) (key : String) (seconds now later : ℤ) :
    (redis.expire key seconds now).hgetall key later = redis.hgetall key now ∨
      (redis.expire key seconds now).hgetall key later = fun _ => none := by
  simp only [hgetall, expire, Function.update_self]
  rcases Slot.read_expire now later seconds (redis.hashes key) with h | h
  · exact Or.inl (by rw [h])
  · exact Or.inr (by rw [h, Option.getD_none])

/-- What is found after `HSET` and `EXPIRE` : the fields until the key expires, then none. -/
theorem hgetall_expire_hset (redis : Redis) (key : String) (fields : List (String × ℚ))
    (seconds now later : ℤ) :
    ((redis.hset key fields now).expire key seconds now).hgetall key later =
      if later ≤ now + seconds * 1000 then (redis.hgetall key now).set fields
      else fun _ => none := by
  simp only [hgetall, expire, hset, Function.update_self, Slot.expire_write, Slot.read_some]
  split_ifs with h
  · rfl
  · rfl

end Redis

end Qoms
