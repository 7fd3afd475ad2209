import LitterBox.Lib.Format
import LitterBox.Logic.Reach

/-!
# Remote commands

`payload_contains` and `handle_remote_control` of `mqtt.c`.  A payload is the memory that can be
read from its pointer on, together with a length; a read outside that memory gives `none`.

* `payloadContains_exact`   the search finds a token exactly when it occurs in the payload;
* `Payload.command_congr`   what is done with a payload depends on its bytes alone;
* `remote_clean_exact`      when what is accepted of a flat JSON object is what it says.
-/

namespace LitterBox
open Format (bytes)
open Json (Text)

/-! ## mqtt.c -/

/-- `memcmp(payload + i, token, token_len) == 0` -/
def memcmpEq (payload : Text) (i : Nat) (token : Text) : Option Bool :=
  if i + token.length ≤ payload.length then
    some (decide ((payload.drop i).take token.length = token))
  else none

/-- the loop of `payload_contains`, `n` more turns from `i` on -/
def payloadScan (payload token : Text) : Nat → Nat → Option Int
  | 0, _ => some 0
  | n + 1, i =>
    match memcmpEq payload i token with
    | none => none
    | some true => some 1
    | some false => payloadScan payload token n (i + 1)

/-- `none` for the payload is the null pointer -/
def payloadContains (payload : Option Text) (payloadLen : Int) (token : Text) : Option Int :=
  let tokenLen : Int := token.length
  match payload with
  | none => some 0
  | some payload =>
    if payloadLen ≤ 0 ∨ tokenLen ≤ 0 ∨ payloadLen < tokenLen then some 0
    else payloadScan payload token (payloadLen - tokenLen + 1).toNat 0

/-- `payload_contains(..) || payload_contains(..) || ..` -/
def payloadContainsAny (payload : Option Text) (payloadLen : Int) : List Text → Option Bool
  | [] => some false
  | token :: tokens =>
    match payloadContains payload payloadLen token with
    | none => none
    | some r =>
      if r ≠ 0 then some true else payloadContainsAny payload payloadLen tokens

/-- what `handle_remote_control` does with a payload -/
inductive RemoteCommand where
  /-- `Sensor_Logic_RequestClean` -/
  | accepted
  /-- `remote reset ignored, local recovery only` -/
  | resetIgnored
  | nothing
  deriving DecidableEq, Repr

def handleRemoteControl (payload : Option Text) (payloadLen : Int) : Option RemoteCommand :=
  match payloadContainsAny payload payloadLen
    [bytes "\"CleanNow\":1", bytes "\"clean_now\":1", bytes "\"flag\":1"] with
  | none => none
  | some true => some .accepted
  | some false =>
    match payloadContainsAny payload payloadLen
      [bytes "\"CleanNow\":0", bytes "\"clean_now\":0", bytes "\"flag\":0"] with
    | none => none
    | some true => some .resetIgnored
    | some false => some .nothing

/-- the calls into `logic.c` -/
def RemoteCommand.calls : RemoteCommand → List Step
  | .accepted => [.requestClean]
  | .resetIgnored => []
  | .nothing => []

/-- a clean request is pending after a message if the message was accepted, or if one was before -/
theorem RemoteCommand.pending_iff (g : Gpio) (i0 : Inputs) (l : List Step) (cmd : RemoteCommand) :
    (run g i0 (l ++ cmd.calls)).gRemoteCleanRequest = true ↔
      cmd = .accepted ∨ (run g i0 l).gRemoteCleanRequest = true := by
  cases cmd with
  | accepted =>
    rw [RemoteCommand.calls, run_snoc]
    exact ⟨fun _ => Or.inl rfl, fun _ => rfl⟩
  | resetIgnored =>
    rw [RemoteCommand.calls, List.append_nil]
    exact (or_iff_right (by decide)).symm
  | nothing =>
    rw [RemoteCommand.calls, List.append_nil]
    exact (or_iff_right (by decide)).symm

/-! ## the search -/

theorem memcmpEq_of_le {payload token : Text} {i : Nat} (h : i + token.length ≤ payload.length) :
    memcmpEq payload i token = some (decide (token <+: payload.drop i)) := by
  unfold memcmpEq
  rw [if_pos h]
  congr 2
  rw [List.prefix_iff_eq_take]
  exact propext eq_comm

/-- the loop looks for the token in the bytes its turns can see -/
theorem payloadScan_spec {payload token : Text} (ht : token ≠ []) (n i : Nat)
    (h : i + n + token.length ≤ payload.length + 1) :
    payloadScan payload token n i =
      some (if token <:+: (payload.drop i).take (n + token.length - 1) then 1 else 0) := by
  have hlen : 0 < token.length := List.length_pos_iff.mpr ht
  induction n generalizing i with
  | zero =>
    have hn : ¬ token <:+: (payload.drop i).take (0 + token.length - 1) := by
      intro hi
      have hl := hi.length_le
      rw [List.length_take] at hl
      omega
    rw [payloadScan, if_neg hn]
  | succ n ih =>
    have hi : i < payload.length := by omega
    have hwin : (payload.drop i).take (n + 1 + token.length - 1) =
        payload[i] :: (payload.drop (i + 1)).take (n + token.length - 1) := by
      rw [List.drop_eq_getElem_cons hi,
        show n + 1 + token.length - 1 = n + token.length - 1 + 1 by omega, List.take_succ_cons]
    have hpre : token <+: (payload.drop i).take (n + 1 + token.length - 1) ↔
        token <+: payload.drop i := by
      rw [List.prefix_take_iff]
      exact and_iff_left (by omega)
    have hinf : token <:+: (payload.drop i).take (n + 1 + token.length - 1) ↔
        token <+: payload.drop i ∨
          token <:+: (payload.drop (i + 1)).take (n + token.length - 1) := by
      rw [← hpre, hwin]
      exact List.infix_cons_iff
    rw [payloadScan, memcmpEq_of_le (by omega)]
    by_cases hp : token <+: payload.drop i
    · rw [if_pos (hinf.mpr (Or.inl hp)), decide_eq_true hp]
    · have hrest := hinf.trans (or_iff_right hp)
      rw [decide_eq_false hp, ih (i + 1) (by omega)]
      simp only [hrest]

/-- a payload and its length; `none` for its memory is the null pointer -/
structure Payload where
  mem : Option Text
  len : Int
  len_le : ∀ m ∈ mem, len ≤ m.length

/-- the bytes of a payload; there are none if the length is negative -/
def Payload.text (p : Payload) : Text := (p.mem.getD []).take p.len.toNat

theorem Payload.text_null {p : Payload} (h : p.mem = none) : p.text = [] := by
  unfold Payload.text
  rw [h]
  exact List.take_nil

/-- a token that is found fits into the payload -/
theorem Payload.length_le {p : Payload} {token : Text} (h : token <:+: p.text) :
    (token.length : Int) ≤ max p.len 0 := by
  have hl := h.length_le
  unfold Payload.text at hl
  rw [List.length_take] at hl
  omega

theorem Payload.contains_eq (p : Payload) (token : Text) :
    payloadContains p.mem p.len token =
      some (if token ≠ [] ∧ token <:+: p.text then 1 else 0) := by
  unfold payloadContains
  cases hm : p.mem with
  | none =>
    refine congrArg some (if_neg ?_).symm
    rintro ⟨hne, hi⟩
    rw [Payload.text_null hm] at hi
    exact hne (List.infix_nil.mp hi)
  | some m =>
    have hle : p.len ≤ m.length := p.len_le m hm
    dsimp only
    split
    next hs =>
      refine congrArg some (if_neg ?_).symm
      rintro ⟨hne, hi⟩
      have hl := Payload.length_le hi
      have hpos := List.length_pos_iff.mpr hne
      omega
    next hs =>
      have hne : token ≠ [] := by
        rintro rfl
        exact hs (Or.inr (Or.inl (le_refl 0)))
      have hpos := List.length_pos_iff.mpr hne
      have hturns : (p.len - token.length + 1).toNat = p.len.toNat - token.length + 1 := by omega
      have hend : p.len.toNat - token.length + 1 + token.length - 1 = p.len.toNat := by omega
      have htext : p.text = m.take p.len.toNat := by
        unfold Payload.text
        rw [hm]
        rfl
      rw [hturns, payloadScan_spec hne _ _ (by omega), List.drop_zero, hend, htext]
      simp only [ne_eq, hne, not_false_eq_true, true_and]

/-- the payload in a memory that ends with it -/
def Payload.cut (p : Payload) : Payload where
  mem := p.mem.map fun _ => p.text
  len := p.len
  len_le := by
    intro m hm
    obtain ⟨m', hm', rfl⟩ := Option.map_eq_some_iff.mp hm
    have hle := p.len_le m' hm'
    unfold Payload.text
    rw [hm', Option.getD_some, List.length_take]
    omega

theorem Payload.cut_text (p : Payload) : p.cut.text = p.text := by
  cases hm : p.mem with
  | none =>
    rw [Payload.text_null hm]
    have hcut : (p.mem.map fun _ => p.text) = none := by
      rw [hm]
      rfl
    exact Payload.text_null hcut
  | some m =>
    show ((p.mem.map fun _ => p.text).getD []).take p.len.toNat = p.text
    rw [hm, Option.map_some, Option.getD_some]
    unfold Payload.text
    rw [List.take_take, Nat.min_self]

/-- **the search is exact and stays in the payload**: it finds a token exactly when the token is not
empty and occurs in the payload, and comes to the same in a memory that ends with the payload -/
theorem payloadContains_exact (p : Payload) (token : Text) :
    (∃ r, payloadContains p.mem p.len token = some r ∧ (r = 0 ∨ r = 1) ∧
      (r = 1 ↔ token ≠ [] ∧ token <:+: p.text)) ∧
    payloadContains (p.mem.map fun _ => p.text) p.len token =
      payloadContains p.mem p.len token := by
  have hcut : payloadContains (p.mem.map fun _ => p.text) p.len token = _ := p.cut.contains_eq token
  rw [hcut, p.contains_eq token, p.cut_text]
  refine ⟨⟨_, rfl, ?_⟩, rfl⟩
  by_cases ht : token ≠ [] ∧ token <:+: p.text
  · rw [if_pos ht]
    exact ⟨Or.inr rfl, iff_of_true rfl ht⟩
  · rw [if_neg ht]
    exact ⟨Or.inl rfl, iff_of_false (by decide) ht⟩

/-- `int token_len = strlen(token)` where `size_t` has 32 bits: a token too long for an `int` is too
long for the payload, and is turned away as such -/
theorem strlen_int {n : Nat} {len : Int} (hn : n < 2 ^ 32) (hlen : len < 2 ^ 31) :
    (len ≤ 0 ∨ (BitVec.ofNat 32 n).toInt ≤ 0 ∨ len < (BitVec.ofNat 32 n).toInt) ↔
      len ≤ 0 ∨ (n : Int) ≤ 0 ∨ len < n := by
  rw [BitVec.toInt_eq_toNat_cond, BitVec.toNat_ofNat, Nat.mod_eq_of_lt hn]
  split <;> omega

theorem Payload.containsAny_eq (p : Payload) (tokens : List Text) :
    payloadContainsAny p.mem p.len tokens =
      some (decide (∃ t ∈ tokens, t ≠ [] ∧ t <:+: p.text)) := by
  induction tokens with
  | nil => rfl
  | cons t tokens ih =>
    rw [payloadContainsAny, p.contains_eq]
    by_cases ht : t ≠ [] ∧ t <:+: p.text
    · rw [if_pos ht]
      simp [ht]
    · rw [if_neg ht]
      simp [ih, ht]

/-- **what is done with a payload** depends on its bytes alone -/
theorem Payload.command_congr {p q : Payload} (h : p.text = q.text) :
    handleRemoteControl p.mem p.len = handleRemoteControl q.mem q.len := by
  unfold handleRemoteControl
  simp only [Payload.containsAny_eq, h]

/-- and it is always done: the payload is read within its memory -/
theorem Payload.command_total (p : Payload) : ∃ cmd, handleRemoteControl p.mem p.len = some cmd := by
  unfold handleRemoteControl
  rw [p.containsAny_eq, p.containsAny_eq]
  split
  next h => cases h
  · exact ⟨_, rfl⟩
  · split
    next h => cases h
    · exact ⟨_, rfl⟩
    · exact ⟨_, rfl⟩

/-! ## flat objects -/

/-- a flat JSON object with natural numbers for values -/
structure FlatObject where
  members : List (Text × Nat)
  unescaped : ∀ m ∈ members, Json.Unescaped m.1
  distinct : (members.map Prod.fst).Nodup

def FlatObject.text (o : FlatObject) : Text :=
  Json.print (.obj (Json.intMembers (o.members.map fun m => (m.1, (m.2 : Int)))))

/-- `CleanNow`, `clean_now` and `flag` -/
def cleanKeys : List Text := [bytes "CleanNow", bytes "clean_now", bytes "flag"]

/-- one of the keys has a number that starts with the digit `d` -/
def FlatObject.shows (o : FlatObject) (d : Nat) : Prop :=
  ∃ m ∈ o.members, m.1 ∈ cleanKeys ∧ (Decimal.ofNat m.2).head? = some (Decimal.digit d)

instance (o : FlatObject) (d : Nat) : Decidable (o.shows d) := List.decidableBEx _ o.members

/-- one of the keys has the value `1` -/
def FlatObject.commandsClean (o : FlatObject) : Prop :=
  ∃ m ∈ o.members, m.1 ∈ cleanKeys ∧ m.2 = 1

/-- one of the keys has a value that is not `1` and starts with the digit `1` -/
def FlatObject.misleads (o : FlatObject) : Prop :=
  ∃ m ∈ o.members, m.1 ∈ cleanKeys ∧ m.2 ≠ 1 ∧
    (Decimal.ofNat m.2).head? = some (Decimal.digit 1)

/-- the payload is the text of the object, in a buffer where `rest` comes after it, and
`handle_remote_control` calls `Sensor_Logic_RequestClean` -/
def FlatObject.requestsClean (o : FlatObject) (rest : Text) : Prop :=
  ∃ cmd, handleRemoteControl (some (o.text ++ rest)) o.text.length = some cmd ∧
    .requestClean ∈ cmd.calls

/-- the text of the object in a buffer where `rest` comes after it -/
def FlatObject.payload (o : FlatObject) (rest : Text) : Payload where
  mem := some (o.text ++ rest)
  len := o.text.length
  len_le := by
    rintro m ⟨⟩
    rw [List.length_append]
    omega

theorem FlatObject.payload_text (o : FlatObject) (rest : Text) : (o.payload rest).text = o.text := by
  show (o.text ++ rest).take _ = o.text
  exact List.take_left

theorem FlatObject.token_infix (o : FlatObject) {key : Text} (hkey : key ∈ cleanKeys) (d : Nat) :
    Json.token key (Decimal.digit d) <:+: o.text ↔
      ∃ m ∈ o.members, m.1 = key ∧ (Decimal.ofNat m.2).head? = some (Decimal.digit d) := by
  have hq : ∀ k ∈ cleanKeys, Json.quote ∉ k ∧ k.head? ≠ some Json.colon := by decide
  have hms : ∀ m ∈ o.members.map fun m => (m.1, (m.2 : Int)), Json.quote ∉ m.1 := by
    intro m hm
    obtain ⟨x, hx, rfl⟩ := List.mem_map.mp hm
    exact (o.unescaped x hx).quote_notMem
  unfold FlatObject.text
  rw [Json.token_infix_print (hq key hkey).1 (hq key hkey).2 _ hms]
  simp only [List.mem_map, exists_exists_and_eq_and, Decimal.ofInt_natCast]

theorem FlatObject.containsAny (o : FlatObject) (rest : Text) (d : Nat) :
    payloadContainsAny (some (o.text ++ rest)) o.text.length
      (cleanKeys.map fun k => Json.token k (Decimal.digit d)) = some (decide (o.shows d)) := by
  have h := (o.payload rest).containsAny_eq (cleanKeys.map fun k => Json.token k (Decimal.digit d))
  rw [o.payload_text rest] at h
  refine h.trans ?_
  congr 2
  refine propext ⟨?_, ?_⟩
  · rintro ⟨t, ht, -, hi⟩
    obtain ⟨k, hk, rfl⟩ := List.mem_map.mp ht
    obtain ⟨m, hm, hmk, hd⟩ := (o.token_infix hk d).mp hi
    exact ⟨m, hm, by rw [hmk]; exact hk, hd⟩
  · rintro ⟨m, hm, hk, hd⟩
    exact ⟨Json.token m.1 (Decimal.digit d), List.mem_map_of_mem hk, List.cons_ne_nil _ _,
      (o.token_infix hk d).mpr ⟨m, hm, rfl, hd⟩⟩

/-- **what is accepted of a flat object** -/
theorem FlatObject.handleRemoteControl_text (o : FlatObject) (rest : Text) :
    handleRemoteControl (some (o.text ++ rest)) o.text.length =
      some (if o.shows 1 then .accepted else if o.shows 0 then .resetIgnored else .nothing) := by
  have h1 : [bytes "\"CleanNow\":1", bytes "\"clean_now\":1", bytes "\"flag\":1"] =
      cleanKeys.map fun k => Json.token k (Decimal.digit 1) := by decide
  have h0 : [bytes "\"CleanNow\":0", bytes "\"clean_now\":0", bytes "\"flag\":0"] =
      cleanKeys.map fun k => Json.token k (Decimal.digit 0) := by decide
  unfold handleRemoteControl
  rw [h1, h0, o.containsAny rest 1, o.containsAny rest 0]
  by_cases hs1 : o.shows 1
  · rw [decide_eq_true hs1, if_pos hs1]
  · by_cases hs0 : o.shows 0
    · rw [decide_eq_false hs1, decide_eq_true hs0, if_neg hs1, if_pos hs0]
    · rw [decide_eq_false hs1, decide_eq_false hs0, if_neg hs1, if_neg hs0]

example : handleRemoteControl (some (bytes "\x7b\"CleanNow\":1\x7d")) 14 = some .accepted := by
  decide

-- white space after the colon hides a command
example : handleRemoteControl (some (bytes "\x7b\"CleanNow\": 1\x7d")) 15 = some .nothing := by
  decide

theorem FlatObject.requestsClean_iff (o : FlatObject) (rest : Text) :
    o.requestsClean rest ↔ o.shows 1 := by
  unfold FlatObject.requestsClean
  rw [o.handleRemoteControl_text rest]
  constructor
  · rintro ⟨cmd, h, hc⟩
    by_contra hs
    rw [if_neg hs, Option.some.injEq] at h
    subst h
    split at hc
    · exact absurd hc List.not_mem_nil
    · exact absurd hc List.not_mem_nil
  · intro hs
    rw [if_pos hs]
    exact ⟨.accepted, rfl, List.mem_singleton.mpr rfl⟩

/-- a number that starts with the digit `1` is `1` or misleads -/
theorem FlatObject.shows_one (o : FlatObject) : o.shows 1 ↔ o.commandsClean ∨ o.misleads := by
  constructor
  · rintro ⟨m, hm, hk, hd⟩
    by_cases h1 : m.2 = 1
    · exact Or.inl ⟨m, hm, hk, h1⟩
    · exact Or.inr ⟨m, hm, hk, h1, hd⟩
  · rintro (⟨m, hm, hk, h1⟩ | ⟨m, hm, hk, -, hd⟩)
    · refine ⟨m, hm, hk, ?_⟩
      rw [h1]
      rfl
    · exact ⟨m, hm, hk, hd⟩

/-- **clean commands are recognised exactly** unless a number that starts with `1` misleads -/
theorem remote_clean_exact (o : FlatObject) (rest : Text) :
    (o.requestsClean rest ↔ o.commandsClean) ↔ (o.misleads → o.commandsClean) := by
  rw [o.requestsClean_iff, o.shows_one]
  constructor
  · intro h hm
    exact h.mp (Or.inr hm)
  · intro h
    exact ⟨fun hs => hs.elim id h, Or.inl⟩

/-- `{"flag":10}` -/
def flagTen : FlatObject where
  members := [(bytes "flag", 10)]
  unescaped := by decide
  distinct := by decide

theorem flagTen_accepted : ¬ (flagTen.requestsClean [] ↔ flagTen.commandsClean) := by
  rintro ⟨h, -⟩
  obtain ⟨m, hm, -, h1⟩ := h ⟨.accepted, by decide, by decide⟩
  rw [List.mem_singleton.mp hm] at h1
  exact absurd h1 (by decide)

end LitterBox
