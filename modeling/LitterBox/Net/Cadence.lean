import LitterBox.Net.Session
import Mathlib.Tactic.Ring

/-!
# When `Mqtt_Task` publishes

`loop_cnt` counts the calls of `IOT_MQTT_Yield` that returned no error, from `0` in each connection,
and `my_publish` is called when it is a multiple of `20`.  The counter is an `int`; a connection of
`2^31` such calls would overflow it.

* `Attempted`            the invariant, by the place in the loop;
* `publishes_each_20`    the calls of `my_publish` in a connection.
-/

namespace LitterBox

/-! ## what is counted -/

/-- of the connection: the calls of `IOT_MQTT_Yield` without error, and at which of them
`my_publish` was called, newest first -/
structure Cadence where
  turns : Nat
  attempts : List Nat
  deriving DecidableEq, Repr

def Cadence.note (p : Session) (a : Answer) (c : Cadence) : Cadence :=
  match p.pc with
  | .subscribed => ⟨0, []⟩
  | .payloadMalloc => { c with attempts := c.turns :: c.attempts }
  | .yielding =>
    match a.event with
    | some _ => c
    | none => if a.res < 0 then c else { c with turns := c.turns + 1 }
  | _ => c

def cadence (l : List Answer) : Cadence :=
  Runs.observe Session.step Cadence.note mqttTask ⟨0, []⟩ l

/-- the first `n` multiples of `20`, the greatest first -/
def twenties (n : Nat) : List Nat := ((List.range n).map (20 * ·)).reverse

theorem twenties_succ (n : Nat) : twenties (n + 1) = 20 * n :: twenties n := by
  unfold twenties
  rw [List.range_succ, List.map_append, List.reverse_append]
  rfl

/-! ## the loop -/

/-- the task is in its inner loop -/
def Pc.inLoop : Pc → Bool
  | .loop => true
  | .payloadMalloc => true
  | .topicMalloc => true
  | .publish => true
  | .yield => true
  | .yielding => true
  | _ => false

/-- **the invariant**: which calls of `my_publish` are behind a place in the loop -/
def Attempted (c : Cadence) : Pc → Prop
  | .loop => c.attempts = twenties ((c.turns + 19) / 20)
  | .payloadMalloc => c.turns % 20 = 0 ∧ c.attempts = twenties (c.turns / 20)
  | .topicMalloc => c.attempts = twenties (c.turns / 20 + 1)
  | .publish => c.attempts = twenties (c.turns / 20 + 1)
  | .yield => c.attempts = twenties (c.turns / 20 + 1)
  | .yielding => c.attempts = twenties (c.turns / 20 + 1)
  | _ => True

/-- `loop_cnt % 20 == 0` -/
theorem loopCnt_tmod {n : Nat} (h : n < 2 ^ 31) :
    (BitVec.ofNat 32 n).toInt.tmod 20 = 0 ↔ n % 20 = 0 := by
  have e : (BitVec.ofNat 32 n).toInt = n := by
    rw [BitVec.toInt_eq_toNat_of_lt]
    · rw [BitVec.toNat_ofNat, Nat.mod_eq_of_lt (by omega)]
    · rw [BitVec.toNat_ofNat, Nat.mod_eq_of_lt (by omega)]
      omega
  rw [e, Int.tmod_eq_emod_of_nonneg (Int.natCast_nonneg n)]
  omega

/-- the session beside its counts; the attempts are known as long as the counter is -/
structure Counted (p : Session) (c : Cadence) : Prop where
  loopCnt : p.pc.inLoop = true → p.loopCnt = BitVec.ofNat 32 c.turns
  attempted : c.turns < 2 ^ 31 → Attempted c p.pc

/-- nothing is claimed outside the loop -/
theorem Counted.outside {p : Session} {c : Cadence} (h : p.pc.inLoop = false) : Counted p c := by
  refine ⟨fun e => ?_, fun _ => ?_⟩
  · rw [h] at e
    cases e
  · cases hp : p.pc with
    | loop => rw [hp] at h; cases h
    | payloadMalloc => rw [hp] at h; cases h
    | topicMalloc => rw [hp] at h; cases h
    | publish => rw [hp] at h; cases h
    | yield => rw [hp] at h; cases h
    | yielding => rw [hp] at h; cases h
    | _ => exact trivial

/-- an event leaves the place in the loop as it is -/
theorem deliver_frame (e : MqttEvent) (p : Session) :
    (p.deliver e).pc = p.pc ∧ (p.deliver e).loopCnt = p.loopCnt := by
  have hset : ∀ (b : Bool) (q : Session),
      (mqttSetLinkState b q).pc = q.pc ∧ (mqttSetLinkState b q).loopCnt = q.loopCnt := by
    intro b q
    unfold mqttSetLinkState
    split <;> exact ⟨rfl, rfl⟩
  cases e with
  | disconnect => exact hset false _
  | reconnect => exact hset true _
  | other => exact ⟨rfl, rfl⟩

/-- **one step** -/
theorem Counted.step {p : Session} {c : Cadence} (h : Counted p c) (a : Answer) :
    Counted (p.step a) (c.note p a) := by
  have hcnt := h.loopCnt
  have hatt := h.attempted
  unfold Session.step Cadence.note
  cases hpc : p.pc with
  | subscribed =>
    dsimp only
    exact ⟨fun _ => rfl, fun _ => rfl⟩
  | loop =>
    rw [hpc] at hcnt hatt
    dsimp only
    rw [hcnt rfl]
    by_cases hlt : c.turns < 2 ^ 31
    · have ha : c.attempts = twenties ((c.turns + 19) / 20) := hatt hlt
      by_cases hm : c.turns % 20 = 0
      · rw [if_pos ((loopCnt_tmod hlt).mpr hm)]
        refine ⟨fun _ => rfl, fun _ => ⟨hm, ?_⟩⟩
        rw [ha, show (c.turns + 19) / 20 = c.turns / 20 by omega]
      · rw [if_neg fun e => hm ((loopCnt_tmod hlt).mp e)]
        refine ⟨fun _ => rfl, fun _ => ?_⟩
        show c.attempts = twenties (c.turns / 20 + 1)
        rw [ha, show (c.turns + 19) / 20 = c.turns / 20 + 1 by omega]
    · split
      · exact ⟨fun _ => rfl, fun e => absurd e hlt⟩
      · exact ⟨fun _ => rfl, fun e => absurd e hlt⟩
  | payloadMalloc =>
    rw [hpc] at hcnt hatt
    dsimp only
    have ha : c.turns < 2 ^ 31 → c.turns :: c.attempts = twenties (c.turns / 20 + 1) := by
      intro hlt
      obtain ⟨hm, e⟩ := hatt hlt
      rw [e, twenties_succ, show 20 * (c.turns / 20) = c.turns by omega]
    split
    · exact ⟨fun _ => hcnt rfl, ha⟩
    · exact ⟨fun _ => hcnt rfl, ha⟩
  | topicMalloc =>
    rw [hpc] at hcnt hatt
    dsimp only
    split
    · exact ⟨fun _ => hcnt rfl, hatt⟩
    · exact ⟨fun _ => hcnt rfl, hatt⟩
  | publish =>
    rw [hpc] at hcnt hatt
    exact ⟨fun _ => hcnt rfl, hatt⟩
  | yield =>
    rw [hpc] at hcnt hatt
    exact ⟨fun _ => hcnt rfl, hatt⟩
  | yielding =>
    dsimp only
    cases a.event with
    | some e =>
      obtain ⟨e1, e2⟩ := deliver_frame e p
      exact ⟨fun hin => e2.trans (hcnt (e1 ▸ hin)), fun hlt => e1 ▸ hatt hlt⟩
    | none =>
      rw [hpc] at hcnt hatt
      dsimp only
      by_cases hr : a.res < 0
      · rw [if_pos hr, if_pos hr]
        exact Counted.outside rfl
      · rw [if_neg hr, if_neg hr]
        refine ⟨fun _ => ?_, fun hlt => ?_⟩
        · show p.loopCnt + 1 = BitVec.ofNat 32 (c.turns + 1)
          rw [hcnt rfl, BitVec.ofNat_add]
          rfl
        · have ha : c.attempts = twenties (c.turns / 20 + 1) :=
            hatt (show c.turns < 2 ^ 31 from Nat.lt_of_succ_lt hlt)
          show c.attempts = twenties ((c.turns + 1 + 19) / 20)
          rw [ha, show (c.turns + 1 + 19) / 20 = c.turns / 20 + 1 by omega]
  | construct =>
    refine Counted.outside ?_
    dsimp only
    split <;> rfl
  | subscribeMalloc =>
    refine Counted.outside ?_
    dsimp only
    split <;> rfl
  | subscribe =>
    refine Counted.outside ?_
    dsimp only
    split <;> rfl
  | _ => exact Counted.outside rfl

/-- **A telemetry message at every twentieth turn.**  In every run, whatever the library and the heap
answer: of the turns of a connection that came back without error, fewer than `2 ^ 31`, `my_publish`
was called before the turns `0, 20, 40, …` and before no others, up to and with the present one once
the test of `loop_cnt` is behind. -/
theorem publishes_each_20 (l : List Answer) (h : (cadence l).turns < 2 ^ 31) :
    ((sessionRun l).pc = .yield ∨ (sessionRun l).pc = .yielding →
      (cadence l).attempts = twenties ((cadence l).turns / 20 + 1)) ∧
    ((sessionRun l).pc = .payloadMalloc → (cadence l).turns % 20 = 0) := by
  have hc : Counted (sessionRun l) (cadence l) :=
    Runs.observe_inv (I := Counted) (fun _ _ a hc => hc.step a) (Counted.outside rfl) l
  have ha := hc.attempted h
  refine ⟨?_, fun e => ?_⟩
  · rintro (e | e)
    · rw [e] at ha
      exact ha
    · rw [e] at ha
      exact ha
  · rw [e] at ha
    exact ha.1

/-- a turn of the task without trouble -/
def quietAnswer : Answer := ⟨true, true, 0, none⟩

theorem publishes_each_20_first :
    (cadence (List.replicate 8 quietAnswer)).attempts = twenties ((cadence
      (List.replicate 8 quietAnswer)).turns / 20 + 1) :=
  (publishes_each_20 (List.replicate 8 quietAnswer) (by decide)).1 (by decide)

end LitterBox
