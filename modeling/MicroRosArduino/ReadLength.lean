import MicroRosArduino.Bench
import MicroRosArduino.Transports

/-!
# The length a read callback returns

`udp_client.read` returns an `int` with an error below 0, and a read callback
turns it into a `size_t`.  The Wi-Fi callback tests the `int`; the
native-Ethernet callback stores it in a `size_t` first, where the test for a
negative one can no longer hold.

* `TrustedLength` — what a caller may rely on.
* `afterWait_of_error` — what each callback makes of an error.
* `trustedLength_iff` — **the Wi-Fi callback can always be trusted**, and the
  native-Ethernet one exactly when the read it made, if any, was no error.
* `error_taken_for_length` — an error returned as a length.
-/

namespace MicroRosArduino

open CInt

variable {w : ℕ} {τ : Type}

/-- The result of `udp_client.read` in a read call, when one is made. -/
def Transport.readResult (tr : Transport) (P : Platform w τ) (fuel : ℕ) (len : BitVec w)
    (timeout : Int32) (s : τ) : Option Int32 :=
  match (tr.waitLoop P timeout s).run fuel (tr.waitStart P s) with
  | (none, _) => none
  | (some _, s') => (tr.afterWait P len s').1

/-- The length `ret` can be trusted: it fits the buffer, it is the result of
`udp_client.read` when there is one from 0 up, and it is 0 otherwise. -/
structure TrustedLength (len : BitVec w) (result : Option Int32) (ret : BitVec w) : Prop where
  le_len : ret.toNat ≤ len.toNat
  of_read : ∀ i, result = some i → 0 ≤ i.toInt → (ret.toNat : ℤ) = i.toInt
  of_error : ∀ i, result = some i → i.toInt < 0 → ret = 0#w
  of_not_read : result = none → ret = 0#w

/-- A call that returns has left its wait in some state, and returns what follows from
there. -/
theorem readCallback_afterWait {tr : Transport} {P : Platform w τ} {fuel : ℕ} {len : BitVec w}
    {timeout : Int32} {s s' : τ} {r : Received w}
    (h : tr.readCallback P fuel len timeout s = (some r, s')) :
    ∃ t, tr.readResult P fuel len timeout s = (tr.afterWait P len t).1 ∧
      r = (tr.afterWait P len t).2.1 := by
  rw [tr.readCallback_eq] at h
  unfold Transport.readResult
  cases hrun : (tr.waitLoop P timeout s).run fuel (tr.waitStart P s) with
  | mk left t =>
    rw [hrun] at h
    cases left with
    | none => exact absurd (congrArg Prod.fst h) (by simp)
    | some l => exact ⟨t, rfl, (Option.some.inj (Prod.mk.inj h).1).symm⟩

/-- A read that was made determines the returned length. -/
theorem afterWait_of_some {tr : Transport} {P : Platform w τ} {len : BitVec w} {t : τ} {i : Int32}
    (h : (tr.afterWait P len t).1 = some i) :
    (tr.afterWait P len t).2.1.ret
      = sizeOfInt w (if tr = .wifi ∧ i.toInt < 0 then 0 else i) := by
  cases tr with
  | wifi =>
    obtain rfl := Option.some.inj h
    simp [Transport.afterWait, lt_zero_iff]
  | nativeEthernet =>
    simp only [Transport.afterWait] at h ⊢
    split at h
    · rename_i ha
      obtain rfl := Option.some.inj h
      simp [ha]
    · exact absurd h (by simp)

/-- Without a read the returned length is 0. -/
theorem afterWait_of_none {tr : Transport} {P : Platform w τ} {len : BitVec w} {t : τ}
    (h : (tr.afterWait P len t).1 = none) : (tr.afterWait P len t).2.1.ret = 0#w := by
  cases tr with
  | wifi => exact absurd h (by simp [Transport.afterWait])
  | nativeEthernet =>
    simp only [Transport.afterWait] at h ⊢
    split at h
    · exact absurd h (by simp)
    · rename_i ha
      simp [ha]

/-- **What an error becomes.**  Over Wi-Fi it becomes 0; over native Ethernet it
becomes a length of `2 ^ 31` or more. -/
theorem afterWait_of_error (hw : 32 ≤ w) {tr : Transport} {P : Platform w τ} {len : BitVec w}
    {t : τ} {i : Int32} (h : (tr.afterWait P len t).1 = some i) (hi : i.toInt < 0) :
    match tr with
    | .wifi => (tr.afterWait P len t).2.1.ret = 0#w
    | .nativeEthernet => 2 ^ 31 ≤ (tr.afterWait P len t).2.1.ret.toNat := by
  rw [afterWait_of_some h]
  cases tr with
  | wifi => simp [hi]
  | nativeEthernet => simpa using le_toNat_sizeOfInt_of_neg hw hi

/-- **When the length can be trusted.**  A call over Wi-Fi always returns a length the
caller can trust; a call over native Ethernet does exactly when the
`udp_client.read` it made, if it made one, did not return an error. -/
theorem trustedLength_iff (hw : 32 ≤ w) (tr : Transport) {P : Platform w τ} {fuel : ℕ}
    {len : BitVec w} {timeout : Int32} {s s' : τ} {r : Received w}
    (hcall : tr.readCallback P fuel len timeout s = (some r, s'))
    (hread : ∀ i, tr.readResult P fuel len timeout s = some i → i.toInt ≤ len.toNat) :
    TrustedLength len (tr.readResult P fuel len timeout s) r.ret ↔
      tr = .wifi ∨ ∀ i, tr.readResult P fuel len timeout s = some i → 0 ≤ i.toInt := by
  obtain ⟨t, hres, rfl⟩ := readCallback_afterWait hcall
  rw [hres] at hread ⊢
  constructor
  · intro htrust
    by_cases htr : tr = .wifi
    · exact Or.inl htr
    · right
      intro i hi
      by_contra hneg
      have hzero := htrust.of_error i hi (by omega)
      have herror := afterWait_of_error hw hi (by omega)
      cases tr with
      | wifi => exact htr rfl
      | nativeEthernet =>
        rw [hzero] at herror
        simp at herror
  · intro hgood
    have hsize : ∀ i, (tr.afterWait P len t).1 = some i → 0 ≤ i.toInt →
        ((tr.afterWait P len t).2.1.ret.toNat : ℤ) = i.toInt := by
      intro i hi hpos
      rw [afterWait_of_some hi, if_neg (by omega)]
      exact toNat_sizeOfInt_of_nonneg hw hpos
    have herror : ∀ i, (tr.afterWait P len t).1 = some i → i.toInt < 0 →
        (tr.afterWait P len t).2.1.ret = 0#w := by
      intro i hi hneg
      rcases hgood with rfl | hgood
      · exact afterWait_of_error hw hi hneg
      · exact absurd (hgood i hi) (by omega)
    refine ⟨?_, hsize, herror, afterWait_of_none⟩
    cases hr : (tr.afterWait P len t).1 with
    | none => simp [afterWait_of_none hr]
    | some i =>
      by_cases hpos : 0 ≤ i.toInt
      · have h := hsize i hr hpos
        have hle := hread i hr
        omega
      · simp [herror i hr (by omega)]

/-! ## A socket error -/

/-- A board with one byte to read. -/
def oneByte : Bench where
  socket := { arrived := [⟨[7], by decide⟩], current := [7] }

/-- The bench with a `udp_client.read` that fails. -/
def failingRead (w : ℕ) : Platform w Bench :=
  { Bench.platform w with read := fun _ b => ((-1, []), b.advance) }

/-- Over native Ethernet the error comes back as a length, on a 32-bit and on a 64-bit
target. -/
theorem error_taken_for_length :
    (Transport.nativeEthernet.readResult (failingRead 32) 1 16#32 0 oneByte = some (-1) ∧
        Transport.nativeEthernet.readCallback (failingRead 32) 1 16#32 0 oneByte
          = (some ⟨4294967295#32, []⟩, oneByte) ∧
        ¬ TrustedLength 16#32 (some (-1)) 4294967295#32) ∧
      Transport.nativeEthernet.readResult (failingRead 64) 1 16#64 0 oneByte = some (-1) ∧
        Transport.nativeEthernet.readCallback (failingRead 64) 1 16#64 0 oneByte
          = (some ⟨18446744073709551615#64, []⟩, oneByte) ∧
        ¬ TrustedLength 16#64 (some (-1)) 18446744073709551615#64 :=
  ⟨⟨rfl, rfl, fun h => absurd h.le_len (by decide)⟩, rfl, rfl,
    fun h => absurd h.le_len (by decide)⟩

theorem read_oneByte_wifi :
    Transport.wifi.readCallback (failingRead 32) 1 16#32 0 oneByte
      = (some ⟨0#32, []⟩, oneByte) := rfl

/-- The same call over Wi-Fi returns 0. -/
theorem trustedLength_wifi_error :
    TrustedLength 16#32 (Transport.wifi.readResult (failingRead 32) 1 16#32 0 oneByte) 0#32 ↔
      Transport.wifi = .wifi ∨
        ∀ i, Transport.wifi.readResult (failingRead 32) 1 16#32 0 oneByte = some i →
          0 ≤ i.toInt :=
  trustedLength_iff (le_refl 32) .wifi read_oneByte_wifi
    fun i hi => by obtain rfl := Option.some.inj hi; decide

end MicroRosArduino
