import AuditGateway.Lib.Machine
import AuditGateway.Lib.TokenBucket
import AuditGateway.Relay.Admission
import Mathlib.Tactic.NormNum

set_option relaxedAutoImplicit false
set_option autoImplicit false

/-!
# How often an address may connect

Every address has a bucket of tokens, and a connection takes one. The table of the addresses forgets
those that are idle, and one that it does not know has a full bucket; it forgets an address only
when its bucket is full again, so nothing is gained by that.

## Main definitions

* `Accepting`, `Accepting.step` — a target over time, with what was tried.

## Main results

* `Accepting.rateKept_of_run` — the account of the bucket of an address, in every run.
* `connectionRate_bounded` — an address is admitted at its rate, and one that keeps to it is not
  refused for it.
-/

namespace AuditGateway

open TokenBucket

/-- A connection that was tried, and why it was refused if it was. -/
structure Attempt (Ip : Type) where
  time : ℚ
  ip : Ip
  result : Except Unit Unit
  reason : Option String

/-- A target over time. -/
structure Accepting (Ip : Type) where
  admission : Admission Ip
  now : ℚ
  attempts : List (Attempt Ip)

/-- A call, and when it is made. -/
inductive AdmissionCall (Ip : Type)
  | admitIp (now : ℚ) (ip : Ip)
  | release (now : ℚ) (ip : Ip)
  | takeRefused (now : ℚ)

namespace AdmissionCall

variable {Ip : Type}

/-- When a call of the accept loop is made. -/
def time : AdmissionCall Ip → ℚ
  | admitIp now _ => now
  | release now _ => now
  | takeRefused now => now

end AdmissionCall

namespace Accepting

variable {Ip : Type}

/-- A target that accepts its first connections. -/
def start (Ip : Type) (maxTotal maxPerAddress : ℕ) (now : ℚ) : Accepting Ip :=
  ⟨.new Ip maxTotal maxPerAddress, now, []⟩

variable [DecidableEq Ip]

/-- A call, at an instant that is not before the last one. -/
def step (s : Accepting Ip) (call : AdmissionCall Ip) : Option (Accepting Ip) :=
  if call.time < s.now then none
  else
    match call with
    | .admitIp now ip =>
      let (admission, result) := s.admission.admitIp now ip
      some ⟨admission, now, ⟨now, ip, result, s.admission.refusal now ip⟩ :: s.attempts⟩
    | .release now ip => some { s with admission := s.admission.release ip, now }
    | .takeRefused now => some { s with admission := (s.admission.takeRefused now).1, now }

/-- When an address tried to connect. -/
def triedTimes (s : Accepting Ip) (ip : Ip) : List ℚ :=
  (s.attempts.filter fun a => a.ip = ip).map (·.time)

/-- When a connection of an address was admitted. -/
def admittedTimes (s : Accepting Ip) (ip : Ip) : List ℚ :=
  (s.attempts.filter fun a => a.ip = ip ∧ a.result.toBool).map (·.time)

/-- An address was refused for its rate. -/
def RefusedForRate (s : Accepting Ip) (ip : Ip) : Prop :=
  ∃ a ∈ s.attempts, a.ip = ip ∧
    a.reason = some "too many new connections per second from this address"

end Accepting

/-! ## The bucket of an address -/

namespace Admission

variable {Ip : Type} [DecidableEq Ip]

/-- The bucket of an address, if the table knows it. -/
def bucketOf (a : Admission Ip) (ip : Ip) : Option (Bucket ℚ) :=
  (a.addresses.get ip).map fun s => ⟨s.tokens, s.last⟩

/-- The tokens that an address has. -/
def tokensOf (a : Admission Ip) (now : ℚ) (ip : Ip) : ℚ :=
  fill connectionRate (2 * connectionRate) (a.bucketOf ip) now

/-- The rate is not negative. -/
theorem connectionRate_nonneg : 0 ≤ connectionRate := by
  unfold connectionRate
  norm_num

/-- An entry has the tokens of its address. -/
theorem entry_tokens (a : Admission Ip) (now : ℚ) (ip : Ip) :
    (a.entry now ip).tokens = a.tokensOf now ip := by
  unfold entry tokensOf bucketOf fill
  cases a.addresses.get ip with
  | none =>
    refine min_eq_right (le_add_of_nonneg_right ?_)
    exact mul_nonneg (le_max_right _ _) connectionRate_nonneg
  | some s => rfl

/-- A bucket whose tokens were counted at an instant has as many then. -/
theorem fill_self {a : Admission Ip} {now tokens : ℚ} {ip : Ip}
    (h : a.bucketOf ip = some ⟨tokens, now⟩) (htokens : tokens ≤ 2 * connectionRate) :
    a.tokensOf now ip = tokens := by
  unfold tokensOf fill
  rw [h]
  simp [htokens]

/-- What an attempt does to the buckets. -/
theorem bucketOf_admitIp (a : Admission Ip) (now : ℚ) (ip k : Ip) :
    (a.admitIp now ip).1.bucketOf k = if k = ip then
      some ⟨a.tokensOf now ip - if a.refusal now ip = none then 1 else 0, now⟩
    else a.bucketOf k := by
  unfold bucketOf
  rw [get_admitIp]
  split_ifs with hk hrefusal
  · rw [hrefusal]
    simp only [Option.map_some, entry_tokens]
    rfl
  · cases h : a.refusal now ip with
    | none => exact absurd h hrefusal
    | some reason =>
      simp only [Option.map_some, entry_tokens, sub_zero]
      rfl
  · rfl

/-- The end of a connection takes no token. -/
@[simp] theorem bucketOf_release (a : Admission Ip) (ip k : Ip) :
    (a.release ip).bucketOf k = a.bucketOf k := by
  unfold bucketOf
  rw [get_release, Option.map_map]
  congr 1
  funext s
  simp only [Function.comp_apply]
  split_ifs <;> rfl

/-- A bucket is forgotten only when it has been left alone for long. -/
theorem bucketOf_takeRefused (a : Admission Ip) (now : ℚ) (k : Ip) :
    (a.takeRefused now).1.bucketOf k = a.bucketOf k ∨
      (a.takeRefused now).1.bucketOf k = none ∧
        ∀ c ∈ a.bucketOf k, idleSecs ≤ secsSince now c.last := by
  unfold bucketOf
  rw [get_takeRefused]
  cases a.addresses.get k with
  | none => exact .inl rfl
  | some s =>
    rw [Option.map_some, Option.filter_some]
    split_ifs with hkeep
    · exact .inl rfl
    · refine .inr ⟨rfl, fun c hc => ?_⟩
      obtain rfl := Option.some.inj hc
      simp only [decide_eq_true_eq, not_or, not_lt] at hkeep
      exact hkeep.2

/-- A report takes no token and gives none. -/
theorem tokensOf_takeRefused {a : Admission Ip} {now : ℚ} {k : Ip}
    (h : ∀ c ∈ a.bucketOf k, 0 ≤ c.tokens) :
    (a.takeRefused now).1.tokensOf now k = a.tokensOf now k := by
  rcases bucketOf_takeRefused a now k with hsame | ⟨hnone, hidle⟩
  · unfold tokensOf
    rw [hsame]
  · have hfull : a.tokensOf now k = 2 * connectionRate := by
      refine fill_eq_cap fun c hc => ⟨h c hc, ?_⟩
      have hmin : 2 * connectionRate ≤ idleSecs * connectionRate := by
        unfold idleSecs connectionRate
        norm_num
      exact hmin.trans (mul_le_mul_of_nonneg_right (hidle c hc) connectionRate_nonneg)
    rw [hfull]
    unfold tokensOf
    rw [hnone]
    rfl

/-- Who is not refused has a token. -/
theorem one_le_tokensOf {a : Admission Ip} {now : ℚ} {ip : Ip} (h : a.refusal now ip = none) :
    1 ≤ a.tokensOf now ip := by
  unfold refusal at h
  simp only [entry_tokens] at h
  split_ifs at h with _ _ htokens
  exact not_lt.1 htokens

/-- Who is refused for the rate has none. -/
theorem tokensOf_lt_one {a : Admission Ip} {now : ℚ} {ip : Ip}
    (h : a.refusal now ip = some "too many new connections per second from this address") :
    a.tokensOf now ip < 1 := by
  unfold refusal at h
  simp only [entry_tokens] at h
  split_ifs at h with _ _ htokens
  · exact absurd (Option.some.inj h) (by decide)
  · exact absurd (Option.some.inj h) (by decide)
  · exact htokens

/-- An attempt is admitted if nothing speaks against it. -/
theorem admitIp_snd (a : Admission Ip) (now : ℚ) (ip : Ip) :
    (a.admitIp now ip).2.toBool = decide (a.refusal now ip = none) := by
  unfold admitIp
  cases a.refusal now ip <;> rfl

end Admission

/-! ## Runs -/

namespace Accepting

variable {Ip : Type} [DecidableEq Ip]

/-- What holds of an address at all times. -/
structure RateKept (s : Accepting Ip) (ip : Ip) : Prop where
  tokens : ∀ c ∈ s.admission.bucketOf ip, 0 ≤ c.tokens
  last : ∀ c ∈ s.admission.bucketOf ip, c.last ≤ s.now
  account : Account connectionRate (2 * connectionRate) s.now (s.admission.tokensOf s.now ip)
    (s.triedTimes ip) (s.admittedTimes ip)
  refused : s.RefusedForRate ip → ¬Within connectionRate (2 * connectionRate) (s.triedTimes ip)

/-- The capacity is not negative. -/
theorem cap_nonneg : 0 ≤ 2 * connectionRate :=
  mul_nonneg zero_le_two Admission.connectionRate_nonneg

/-- The rate is kept at the start. -/
theorem rateKept_start (maxTotal maxPerAddress : ℕ) (now : ℚ) (ip : Ip) :
    (start Ip maxTotal maxPerAddress now).RateKept ip where
  tokens := fun _ hc => nomatch hc
  last := fun _ hc => nomatch hc
  account := Account.start Admission.connectionRate_nonneg cap_nonneg
  refused := fun ⟨_, ha, _⟩ => absurd ha List.not_mem_nil

/-- Time passes. -/
theorem RateKept.wait {s : Accepting Ip} {ip : Ip} (h : s.RateKept ip) {now : ℚ}
    (hnow : s.now ≤ now) : RateKept { s with now } ip where
  tokens := h.tokens
  last := fun c hc => (h.last c hc).trans hnow
  account := by
    have hwait := h.account.wait Admission.connectionRate_nonneg hnow
    unfold Admission.tokensOf at hwait
    rw [← fill_wait Admission.connectionRate_nonneg h.last hnow] at hwait
    exact hwait
  refused := h.refused

/-- An attempt of another address changes nothing for this one. -/
theorem RateKept.other {s : Accepting Ip} {k : Ip} (h : s.RateKept k) {admission : Admission Ip}
    {attempt : Attempt Ip} (hne : attempt.ip ≠ k)
    (hbucket : admission.bucketOf k = s.admission.bucketOf k) :
    RateKept ⟨admission, s.now, attempt :: s.attempts⟩ k where
  tokens := by
    rw [hbucket]
    exact h.tokens
  last := by
    rw [hbucket]
    exact h.last
  account := by
    have htokens : admission.tokensOf s.now k = s.admission.tokensOf s.now k := by
      unfold Admission.tokensOf
      rw [hbucket]
    rw [htokens]
    simpa [triedTimes, admittedTimes, hne] using h.account
  refused := by
    rintro ⟨a, ha, hip, hreason⟩
    rcases List.mem_cons.1 ha with rfl | ha
    · exact absurd hip hne
    · simpa [triedTimes, hne] using h.refused ⟨a, ha, hip, hreason⟩

/-- An attempt that leaves the address these tokens, and that is refused for the rate only if there
was none. -/
theorem RateKept.own {s : Accepting Ip} {ip : Ip} (h : s.RateKept ip) {admission : Admission Ip}
    {attempt : Attempt Ip} {tokens : ℚ} (hip : attempt.ip = ip) (htime : attempt.time = s.now)
    (hbucket : admission.bucketOf ip = some ⟨tokens, s.now⟩) (hnonneg : 0 ≤ tokens)
    (hle : tokens ≤ 2 * connectionRate)
    (haccount : Account connectionRate (2 * connectionRate) s.now tokens
      (s.now :: s.triedTimes ip)
      (admittedTimes ⟨admission, s.now, attempt :: s.attempts⟩ ip))
    (hreason : attempt.reason = some "too many new connections per second from this address" →
      s.admission.tokensOf s.now ip < 1) :
    RateKept ⟨admission, s.now, attempt :: s.attempts⟩ ip := by
  have htried : triedTimes ⟨admission, s.now, attempt :: s.attempts⟩ ip =
      s.now :: s.triedTimes ip := by
    simp [triedTimes, hip, htime]
  constructor
  · intro c hc
    obtain rfl : _ = c := Option.some.inj (hbucket.symm.trans hc)
    exact hnonneg
  · intro c hc
    obtain rfl : _ = c := Option.some.inj (hbucket.symm.trans hc)
    exact le_refl _
  · rw [htried, Admission.fill_self hbucket hle]
    exact haccount
  · rintro ⟨a, ha, haip, hrate⟩ hwithin
    rw [htried] at hwithin
    rcases List.mem_cons.1 ha with rfl | ha
    · exact h.account.not_within (hreason hrate) hwithin
    · exact h.refused ⟨a, ha, haip, hrate⟩ hwithin.of_cons

/-- The rate is kept behind an attempt to connect. -/
theorem RateKept.admitIp {s : Accepting Ip} {k : Ip} (h : s.RateKept k) (ip : Ip) :
    RateKept ⟨(s.admission.admitIp s.now ip).1, s.now,
      ⟨s.now, ip, (s.admission.admitIp s.now ip).2, s.admission.refusal s.now ip⟩ :: s.attempts⟩
      k := by
  have hbucket := Admission.bucketOf_admitIp s.admission s.now ip k
  have hresult := Admission.admitIp_snd s.admission s.now ip
  by_cases hk : ip = k
  · subst hk
    have hnonneg : 0 ≤ s.admission.tokensOf s.now ip :=
      fill_nonneg Admission.connectionRate_nonneg cap_nonneg h.tokens
    have hle : s.admission.tokensOf s.now ip ≤ 2 * connectionRate := fill_le _ _ _ _
    rw [if_pos rfl] at hbucket
    by_cases hrefusal : s.admission.refusal s.now ip = none
    · have hone := Admission.one_le_tokensOf hrefusal
      rw [if_pos hrefusal] at hbucket
      refine h.own rfl rfl hbucket (sub_nonneg.2 hone) (by linarith) ?_ fun hrate => ?_
      · simpa [admittedTimes, hresult, hrefusal] using
          h.account.take Admission.connectionRate_nonneg hone
      · cases hrefusal.symm.trans hrate
    · rw [if_neg hrefusal, sub_zero] at hbucket
      refine h.own rfl rfl hbucket hnonneg hle ?_ Admission.tokensOf_lt_one
      simpa [admittedTimes, hresult, hrefusal] using h.account.refuse
  · rw [if_neg (Ne.symm hk)] at hbucket
    exact h.other hk hbucket

/-- The rate is kept behind the end of a connection. -/
theorem RateKept.release {s : Accepting Ip} {k : Ip} (h : s.RateKept k) (ip : Ip) :
    RateKept { s with admission := s.admission.release ip } k where
  tokens := by
    rw [Admission.bucketOf_release]
    exact h.tokens
  last := by
    rw [Admission.bucketOf_release]
    exact h.last
  account := by
    have htokens : (s.admission.release ip).tokensOf s.now k = s.admission.tokensOf s.now k := by
      unfold Admission.tokensOf
      rw [Admission.bucketOf_release]
    rw [htokens]
    exact h.account
  refused := h.refused

/-- The rate is kept behind a report. -/
theorem RateKept.takeRefused {s : Accepting Ip} {k : Ip} (h : s.RateKept k) :
    RateKept { s with admission := (s.admission.takeRefused s.now).1 } k where
  tokens := by
    intro c hc
    rcases Admission.bucketOf_takeRefused s.admission s.now k with hsame | ⟨hnone, -⟩
    · exact h.tokens c (hsame.symm.trans hc)
    · cases hnone.symm.trans hc
  last := by
    intro c hc
    rcases Admission.bucketOf_takeRefused s.admission s.now k with hsame | ⟨hnone, -⟩
    · exact h.last c (hsame.symm.trans hc)
    · cases hnone.symm.trans hc
  account := by
    rw [Admission.tokensOf_takeRefused h.tokens]
    exact h.account
  refused := h.refused

/-- A call keeps the account of every address. -/
theorem rateKept_step {s t : Accepting Ip} {call : AdmissionCall Ip} {ip : Ip}
    (h : s.RateKept ip) (hstep : s.step call = some t) : t.RateKept ip := by
  unfold step at hstep
  split_ifs at hstep with hpast
  have hwait : RateKept { s with now := call.time } ip := h.wait (not_lt.1 hpast)
  cases call with
  | admitIp now k =>
    cases hstep
    exact hwait.admitIp k
  | release now k =>
    cases hstep
    exact hwait.release k
  | takeRefused now =>
    cases hstep
    exact hwait.takeRefused

/-- **The account of an address** holds in every run. -/
theorem rateKept_of_run {maxTotal maxPerAddress : ℕ} {now : ℚ} {calls : List (AdmissionCall Ip)}
    {s : Accepting Ip}
    (h : Machine.run step (start Ip maxTotal maxPerAddress now) calls = some s) (ip : Ip) :
    s.RateKept ip :=
  Machine.run_invariant (fun _ _ _ hs hstep => rateKept_step hs hstep)
    (rateKept_start maxTotal maxPerAddress now ip) h

end Accepting

/-- **The connection rate is bounded**: however attempts, ends of connections and reports follow
each other, in every window of length `T` at most `2 * connectionRate + connectionRate * T`
connections of an address are admitted; and an address whose attempts stay within that in every
window is never refused for its rate.

**Proof sketch.** The tokens of an address are its bucket's, also when the table has forgotten it:
it does so after a minute, and then the bucket is full. What was admitted since an instant and the
tokens of now are together within the rate, and what is missing in the bucket was tried since it was
full the last time. -/
theorem connectionRate_bounded {Ip : Type} [DecidableEq Ip] {maxTotal maxPerAddress : ℕ} {now : ℚ}
    {calls : List (AdmissionCall Ip)} {s : Accepting Ip}
    (h : Machine.run Accepting.step (.start Ip maxTotal maxPerAddress now) calls = some s)
    (ip : Ip) :
    Within connectionRate (2 * connectionRate) (s.admittedTimes ip) ∧
      (Within connectionRate (2 * connectionRate) (s.triedTimes ip) → ¬s.RefusedForRate ip) := by
  have hkept := Accepting.rateKept_of_run h ip
  exact ⟨hkept.account.within, fun hwithin hrefused => hkept.refused hrefused hwithin⟩

/-- An address that was forgotten connects again. -/
theorem connectionRate_bounded_forgotten : ∃ s : Accepting String,
    Machine.run Accepting.step (.start String 5 2 0)
      [.admitIp 0 "192.0.2.7", .release 1 "192.0.2.7", .takeRefused 70, .admitIp 70 "192.0.2.7"] =
        some s ∧
    s.admittedTimes "192.0.2.7" = [70, 0] ∧
    Within connectionRate (2 * connectionRate) (s.admittedTimes "192.0.2.7") ∧
    (Within connectionRate (2 * connectionRate) (s.triedTimes "192.0.2.7") →
      ¬s.RefusedForRate "192.0.2.7") := by
  have hrun : (Machine.run Accepting.step (.start String 5 2 0)
      [.admitIp 0 "192.0.2.7", .release 1 "192.0.2.7", .takeRefused 70,
        .admitIp 70 "192.0.2.7"]).map (·.admittedTimes "192.0.2.7") = some [70, 0] := by
    decide +kernel
  obtain ⟨s, hs, htimes⟩ := Option.map_eq_some_iff.1 hrun
  exact ⟨s, hs, htimes, connectionRate_bounded hs "192.0.2.7"⟩

end AuditGateway
