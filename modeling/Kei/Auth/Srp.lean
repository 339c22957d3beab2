import Kei.Lib.Bytes
import Mathlib.Data.Int.ModEq
import Mathlib.Data.Nat.Log
import Mathlib.Data.Nat.ModEq
import Mathlib.Tactic.Ring

/-!
# Kei.Auth.Srp

The computation of `authenticate_srp`: what the client makes of the answer to
its first message, and the secret it shares with the server.

The password key and the hash are arbitrary.  A subtraction of natural numbers
panics below zero, so it is checked here.
-/

namespace Kei.Auth

open Bytes

/-- `N_HEX`, by its lines. -/
def srpN : Nat :=
  [0xAC6BDB41324A9A9BF166DE5E1389582FAF72B6651987EE07FC319294,
    0x3DB56050A37329CBB4A099ED8193E0757767A13DD52312AB4B03310D,
    0xCD7F48A9DA04FD50E8083969EDB767B0CF6095179A163AB3661A05FB,
    0xD5FAAAE82918A9962F0B93B855F97993EC975EEAA80D740ADBF4FF74,
    0x7359D041D5C33EA71D281E446B14773BCA97B43A23FB801676BD207A,
    0x436C6481F1D2B9078717461A5B9D32E688F87748544523B524B0D57D,
    0x5EA77A2775D2ECFA032CFBDBF52FB3786160279004E57AE6AF874E73,
    0x03CE53299CCC041C7BC308D82A5698F3A8D0C38271AE35F8E9DBFBB6,
    0x94B5C803D89F7AE435DE236D525F54759B65E372FCD68EF20FA7111F].foldl
      (fun n line => n * 16 ^ 56 + line) 0 * 16 ^ 8 + 0x9E4AFF73

/-- `G_VAL`. -/
def srpG : Nat := 2

/-! ## numbers -/

/-- `to_bytes_be`: no leading zeros, but one byte for zero. -/
def toBytesBe (n : Nat) : List UInt8 := toBe (Nat.log 256 n + 1) n

/-- `modpow`. -/
def modpow (base exponent n : Nat) : Nat := base ^ exponent % n

/-- Zeros in front, up to a length. -/
def padTo (length : Nat) (bytes : List UInt8) : List UInt8 :=
  List.replicate (length - bytes.length) 0 ++ bytes

/-! ## the hashes -/

section

variable (sha256 : List UInt8 → List UInt8)

def computeX (salt passwordKey : List UInt8) : Nat :=
  beNat (sha256 (salt ++ sha256 (0x3A :: passwordKey)))

def computeK (n g : Nat) : Nat :=
  let nBytes := toBytesBe n
  beNat (sha256 (nBytes ++ padTo nBytes.length (toBytesBe g)))

def computeU (aPub bPub n : Nat) : Nat :=
  let padLen := (toBytesBe n).length
  beNat (sha256 (padTo padLen (toBytesBe aPub) ++ padTo padLen (toBytesBe bPub)))

def computeM1 (n g : Nat) (username salt : List UInt8) (aPub bPub : Nat) (key : List UInt8) :
    List UInt8 :=
  let nBytes := toBytesBe n
  let hN := sha256 nBytes
  let hG := sha256 (padTo nBytes.length (toBytesBe g))
  sha256 (List.zipWith (· ^^^ ·) hN hG ++ sha256 username ++ salt ++ toBytesBe aPub ++
    toBytesBe bPub ++ key)

def computeM2 (aPub : Nat) (m1 key : List UInt8) : List UInt8 :=
  sha256 (toBytesBe aPub ++ m1 ++ key)

/-! ## the client -/

inductive SrpError where
  | failedLogin (message : String)
  /-- A number would be below zero. -/
  | underflow
  deriving DecidableEq

/-- What the client computes for its second message. -/
structure SrpSession where
  s : Nat
  key : List UInt8
  m1 : List UInt8
  m2 : List UInt8

/-- `BigUint`'s subtraction. -/
def subtract (a b : Nat) : Except SrpError Nat := if b ≤ a then .ok (a - b) else .error .underflow

/-- The base of the power that the client computes. -/
def clientBase (n bPub kv : Nat) : Except SrpError Nat :=
  if kv ≤ bPub then subtract bPub kv else subtract (bPub + n) kv

/-- What follows once there is a secret. -/
def sessionOf (username salt : List UInt8) (aPub bPub s : Nat) : SrpSession :=
  let key := sha256 (toBytesBe s)
  let m1 := computeM1 sha256 srpN srpG username salt aPub bPub key
  { s := s, key := key, m1 := m1, m2 := computeM2 sha256 aPub m1 key }

/-- The client's part, from the answer to its first message on. -/
def authenticateSrp (username : List UInt8) (aPrivate : Nat)
    (salt passwordKey bPubBytes : List UInt8) : Except SrpError SrpSession :=
  let n := srpN
  let g := srpG
  let aPub := modpow g aPrivate n
  let bPub := beNat bPubBytes
  let x := computeX sha256 salt passwordKey
  let k := computeK sha256 n g
  let u := computeU sha256 aPub bPub n
  if u = 0 then .error (.failedLogin "Apple SRP login returned an invalid challenge.")
  else if bPub % n = 0 then
    .error (.failedLogin "Apple SRP login returned an invalid public key.")
  else do
    let v := modpow g x n
    let kv := k * v % n
    let base ← clientBase n bPub kv
    let exp := aPrivate + u * x
    return sessionOf sha256 username salt aPub bPub (modpow base exp n)

/-! ## the server -/

/-- The secret of a server with this verifier and private exponent. -/
def serverSecret (aPub v u bPrivate : Nat) : Nat := (aPub * v ^ u) ^ bPrivate % srpN

end

/-! ## the secret -/

/-- The client's correction is large enough, and the base is what is left of the public key. -/
theorem clientBase_eq_ok {n kv : Nat} (bPub : Nat) (h : kv < n) :
    ∃ base, clientBase n bPub kv = .ok base ∧ base + kv ≡ bPub [MOD n] := by
  unfold clientBase subtract
  by_cases hle : kv ≤ bPub
  · refine ⟨bPub - kv, by simp [hle], ?_⟩
    rw [Nat.sub_add_cancel hle]
  · have hfits : kv ≤ bPub + n := by omega
    refine ⟨bPub + n - kv, by simp [hle, hfits], ?_⟩
    rw [Nat.sub_add_cancel hfits]
    exact Nat.add_modEq_right

/-- A base that is congruent to `g ^ b` has the power that the server computes. -/
theorem pow_agrees {n g a b u x base : Nat} (h : base ≡ g ^ b [MOD n]) :
    base ^ (a + u * x) ≡ (g ^ a % n * (g ^ x % n) ^ u) ^ b [MOD n] := by
  calc base ^ (a + u * x)
      ≡ (g ^ b) ^ (a + u * x) [MOD n] := h.pow _
    _ = (g ^ a * (g ^ x) ^ u) ^ b := by ring
    _ ≡ (g ^ a % n * (g ^ x % n) ^ u) ^ b [MOD n] :=
      (((Nat.mod_modEq _ _).symm.mul ((Nat.mod_modEq _ _).symm.pow u))).pow b

theorem srpN_pos : 0 < srpN := by decide

section

variable {sha256 : List UInt8 → List UInt8}

/-- What is left of a public key of the server is congruent to `g ^ b`. -/
theorem clientBase_agrees {k x b bPub base : Nat}
    (hpub : bPub ≡ k * srpG ^ x + srpG ^ b [MOD srpN])
    (hbase : base + k * modpow srpG x srpN % srpN ≡ bPub [MOD srpN]) :
    base ≡ srpG ^ b [MOD srpN] := by
  have hkv : k * modpow srpG x srpN % srpN ≡ k * srpG ^ x [MOD srpN] :=
    (Nat.mod_modEq _ _).trans ((Nat.mod_modEq _ _).mul_left k)
  have hsum : base + k * modpow srpG x srpN % srpN ≡ srpG ^ b + k * srpG ^ x [MOD srpN] := by
    rw [Nat.add_comm (srpG ^ b)]
    exact hbase.trans hpub
  exact Nat.ModEq.add_right_cancel hkv hsum

/-- The client computes a session unless one of the numbers is refused. -/
theorem authenticateSrp_eq {username salt passwordKey bPubBytes : List UInt8} {a : Nat}
    (hu : computeU sha256 (modpow srpG a srpN) (beNat bPubBytes) srpN ≠ 0)
    (hpub : ¬ beNat bPubBytes ≡ 0 [MOD srpN]) :
    ∃ base, base + computeK sha256 srpN srpG * modpow srpG (computeX sha256 salt passwordKey) srpN
          % srpN ≡ beNat bPubBytes [MOD srpN] ∧
      authenticateSrp sha256 username a salt passwordKey bPubBytes =
        .ok (sessionOf sha256 username salt (modpow srpG a srpN) (beNat bPubBytes)
          (modpow base (a + computeU sha256 (modpow srpG a srpN) (beNat bPubBytes) srpN *
            computeX sha256 salt passwordKey) srpN)) := by
  have hne : beNat bPubBytes % srpN ≠ 0 := hpub
  obtain ⟨base, hbase, hleft⟩ := clientBase_eq_ok (beNat bPubBytes)
    (Nat.mod_lt (computeK sha256 srpN srpG *
      modpow srpG (computeX sha256 salt passwordKey) srpN) srpN_pos)
  refine ⟨base, hleft, ?_⟩
  unfold authenticateSrp
  simp only [hu, hne, if_false, hbase]
  rfl

theorem authenticateSrp_ne_underflow (username salt passwordKey bPubBytes : List UInt8) (a : Nat) :
    authenticateSrp sha256 username a salt passwordKey bPubBytes ≠ .error .underflow := by
  by_cases hu : computeU sha256 (modpow srpG a srpN) (beNat bPubBytes) srpN = 0
  · simp [authenticateSrp, hu]
  · by_cases hpub : beNat bPubBytes % srpN = 0
    · simp [authenticateSrp, hu, hpub]
    · obtain ⟨base, -, hsession⟩ := @authenticateSrp_eq sha256 username salt passwordKey
        bPubBytes a hu hpub
      rw [hsession]
      simp

/--
**Client and server share the secret.**  For every representative of the
server's public key that is not refused, the client computes the secret of the
server, and so its key.  It stops only at a scrambling parameter of zero.
-/
theorem authenticateSrp_agrees (username salt passwordKey bPubBytes : List UInt8) (a b : Nat)
    (hpub : beNat bPubBytes ≡ computeK sha256 srpN srpG *
      srpG ^ computeX sha256 salt passwordKey + srpG ^ b [MOD srpN])
    (hne : ¬ beNat bPubBytes ≡ 0 [MOD srpN]) :
    let aPub := modpow srpG a srpN
    let v := modpow srpG (computeX sha256 salt passwordKey) srpN
    let u := computeU sha256 aPub (beNat bPubBytes) srpN
    let secret := serverSecret aPub v u b
    authenticateSrp sha256 username a salt passwordKey bPubBytes ≠ .error .underflow ∧
      (u = 0 → authenticateSrp sha256 username a salt passwordKey bPubBytes =
        .error (.failedLogin "Apple SRP login returned an invalid challenge.")) ∧
      (u ≠ 0 → ∃ session, authenticateSrp sha256 username a salt passwordKey bPubBytes =
        .ok session ∧ session.s = secret ∧ session.key = sha256 (toBytesBe secret)) := by
  intro aPub v u secret
  refine ⟨authenticateSrp_ne_underflow username salt passwordKey bPubBytes a, fun hzero => ?_,
    fun hnonzero => ?_⟩
  · unfold authenticateSrp
    exact if_pos hzero
  · obtain ⟨base, hbase, hsession⟩ := @authenticateSrp_eq sha256 username salt passwordKey
      bPubBytes a hnonzero hne
    have hsecret : modpow base (a + u * computeX sha256 salt passwordKey) srpN = secret :=
      pow_agrees (clientBase_agrees hpub hbase)
    rw [hsecret] at hsession
    exact ⟨_, hsession, rfl, rfl⟩

/-- A hash that is 2047 for short inputs and 1 for longer ones. -/
def lengthHash (bytes : List UInt8) : List UInt8 := if bytes.length ≤ 2 then [7, 255] else [1]

/-- A public key of the server that is less than `k * v`. -/
def smallKey : List UInt8 := toBe 256 (2 ^ 2048 - srpN)

theorem lengthHash_append {bytes bytes' : List UInt8} (h : 2 < bytes.length) :
    lengthHash (bytes ++ bytes') = [1] := by
  rw [lengthHash, if_neg]
  rw [List.length_append]
  omega

/-- A number with a high digit has more than two bytes. -/
theorem length_toBytesBe_srpN : 2 < (toBytesBe srpN).length := by
  rw [toBytesBe, length_toBe]
  have hlog : 2 ≤ Nat.log 256 srpN := Nat.le_log_of_pow_le (by decide) (by decide +kernel)
  omega

/-- The exponents 1 and 2047: the client takes `k * v` from the public key and `N`. -/
theorem authenticateSrp_agrees_small :
    beNat smallKey < computeK lengthHash srpN srpG *
        modpow srpG (computeX lengthHash [] []) srpN % srpN ∧
      ∃ session, authenticateSrp lengthHash [] 1 [] [] smallKey = .ok session ∧
        session.s = serverSecret (modpow srpG 1 srpN) (modpow srpG 2047 srpN) 1 2047 := by
  have hk : computeK lengthHash srpN srpG = 1 :=
    congrArg beNat (lengthHash_append length_toBytesBe_srpN)
  have hu : computeU lengthHash (modpow srpG 1 srpN) (beNat smallKey) srpN = 1 := by
    refine congrArg beNat (lengthHash_append ?_)
    have hlength := length_toBytesBe_srpN
    rw [padTo, List.length_append, List.length_replicate]
    omega
  have hx : computeX lengthHash [] [] = 2047 := by decide +kernel
  have hkey : beNat smallKey = 2 ^ 2048 - srpN := beNat_toBe (by decide +kernel)
  have hagrees := @authenticateSrp_agrees lengthHash [] [] [] smallKey 1 2047
    (by rw [hk, hx, hkey]; decide +kernel) (by rw [hkey]; decide +kernel)
  rw [hk, hx, hkey]
  refine ⟨by decide +kernel, ?_⟩
  obtain ⟨session, hsession, hs, -⟩ := hagrees.2.2 (by rw [hu]; decide)
  rw [hu, hx] at hs
  exact ⟨session, hsession, hs⟩

end

end Kei.Auth
