import RXCore.Net
import RXCore.Lib.Encoding

/-!
# External crates

What the engine calls in code that is not its own: the Unicode tables behind `to_lowercase` and the
crates `uuid`, `regex`, `ipnet`, `x25519-dalek`, `hkdf`, `sha2`, `aes-gcm`, `rcgen`. They are one parameter of
the model; a result that relies on the behaviour of one of them says so in a hypothesis.

* `Uuid`, `Ipv4Net`;
* `Crates`, and `Crates.Laws`: what the documentation of the cryptographic crates promises;
* `Sample.crates`: functions with these laws that compute what the crates compute on one handshake.
-/

set_option autoImplicit false

namespace RXCore

/-- `uuid::Uuid`, by its bytes. -/
abbrev Uuid := Vector UInt8 16

/-- A key of 32 bytes. -/
abbrev Key := Vector UInt8 32

/-- `ipnet::Ipv4Net`: an address and the length of its leading bits. -/
structure Ipv4Net where
  addr : Ipv4Addr
  networkBits : ℕ
  networkBits_le : networkBits ≤ 32

/-- `Ipv4Net::contains`: the address has the network's leading bits. -/
def Ipv4Net.contains (net : Ipv4Net) (ip : Ipv4Addr) : Bool :=
  net.addr.toNat / 2 ^ (32 - net.networkBits) == ip.toNat / 2 ^ (32 - net.networkBits)

/-- The functions of external crates. -/
structure Crates where
  /-- `str::to_lowercase`. -/
  toLowercase : String → String
  /-- `Uuid::parse_str(..).ok()`. -/
  parseUuid : String → Option Uuid
  /-- `Uuid::to_string`. -/
  uuidToString : Uuid → String
  /-- `Regex::new(..).ok()`, as the function `is_match`. -/
  regex : String → Option (String → Bool)
  /-- `str::parse::<ipnet::Ipv4Net>().ok()`. -/
  parseIpv4Net : String → Option Ipv4Net
  /-- `x25519_dalek::PublicKey::from(&StaticSecret::from(..))`. -/
  x25519Public : Key → Key
  /-- `StaticSecret::diffie_hellman`. -/
  diffieHellman : Key → Key → Key
  /-- `Hkdf::<Sha256>::new(Some(salt), ikm)` and `expand` to 32 bytes, too few for it to fail. -/
  hkdfSha256 : (salt ikm info : List UInt8) → Key
  /-- `Sha256::digest`. -/
  sha256 : List UInt8 → List UInt8
  /-- `Aes256Gcm::encrypt_in_place` with key, nonce and associated data. -/
  aes256GcmEncrypt : (key : Key) → (nonce aad plaintext : List UInt8) → List UInt8
  /-- `Aes256Gcm::decrypt_in_place` with key, nonce and associated data. -/
  aes256GcmDecrypt : (key : Key) → (nonce aad ciphertext : List UInt8) → Option (List UInt8)
  /-- `rcgen` and `rustls` make the start-up certificate of a Reality server, or say why not. -/
  selfSigned : Except String Unit

/-- What the cryptographic crates promise. -/
structure Crates.Laws (X : Crates) : Prop where
  /-- Diffie–Hellman commutes. -/
  diffieHellman_comm : ∀ a b : Key,
    X.diffieHellman a (X.x25519Public b) = X.diffieHellman b (X.x25519Public a)
  /-- Decryption inverts encryption under the same key, nonce and associated data, and fails on
  everything else. -/
  decrypt_iff : ∀ (key : Key) (nonce aad c p : List UInt8),
    X.aes256GcmDecrypt key nonce aad c = some p ↔ c = X.aes256GcmEncrypt key nonce aad p
  /-- The ciphertext is the plaintext's length and a tag of 16 bytes. -/
  encrypt_length : ∀ (key : Key) (nonce aad p : List UInt8),
    (X.aes256GcmEncrypt key nonce aad p).length = p.length + 16

/-! ## A concrete instance

The values of X25519, HKDF and AES-256-GCM for one server key, one client key and one ClientHello;
elsewhere the functions are stand-ins that keep the laws. -/

namespace Sample

open Encoding

def serverSecret : Key := ⟨#[
  133, 145, 207, 241, 131, 217, 20, 17, 154, 220, 41, 232, 222, 119, 169, 41, 250, 41,
  255, 226, 150, 203, 118, 38, 165, 122, 185, 89, 7, 95, 175, 34], rfl⟩

def serverPublic : Key := ⟨#[
  125, 200, 101, 20, 116, 219, 211, 166, 214, 105, 154, 29, 53, 113, 16, 178, 248, 139,
  65, 44, 223, 226, 31, 27, 64, 191, 4, 63, 140, 106, 112, 62], rfl⟩

def clientSecret : Key := Vector.replicate 32 7

def clientPublic : Key := ⟨#[
  19, 190, 79, 234, 234, 242, 4, 199, 253, 51, 88, 252, 156, 0, 114, 24, 129, 209, 116,
  39, 129, 40, 34, 126, 198, 116, 243, 127, 127, 233, 123, 109], rfl⟩

def sharedSecret : Key := ⟨#[
  179, 224, 14, 253, 77, 83, 174, 83, 140, 250, 232, 12, 43, 42, 73, 244, 242, 107, 80,
  207, 24, 187, 104, 15, 14, 159, 62, 88, 75, 206, 53, 37], rfl⟩

def derivedKey : Key := ⟨#[
  176, 27, 197, 22, 31, 71, 212, 41, 71, 154, 215, 124, 136, 4, 190, 156, 79, 200, 125,
  189, 113, 29, 193, 237, 100, 197, 88, 56, 230, 175, 119, 153], rfl⟩

/-- The random of the client. -/
def random : List UInt8 := (List.range 32).map UInt8.ofNat

/-- The plaintext with the short id `da09`, followed by 16 zeros. -/
def plaintext : List UInt8 := [0, 0, 0, 0, 0xda, 0x09] ++ List.replicate 26 0

/-- Its encryption, tag included. -/
def ciphertext : List UInt8 := [
  69, 118, 95, 113, 178, 215, 219, 137, 88, 192, 219, 43, 24, 115, 9, 85, 51, 114, 183,
  82, 252, 73, 227, 5, 20, 52, 91, 208, 200, 18, 15, 81]

def x25519Public (k : Key) : Key :=
  if k = serverSecret then serverPublic else if k = clientSecret then clientPublic else k

/-- The shared secret of two public keys. -/
def mix (a b : Key) : Key :=
  if (a = serverPublic ∧ b = clientPublic) ∨ (a = clientPublic ∧ b = serverPublic) then sharedSecret
  else Vector.replicate 32 0

/-- Exchange the sample plaintext and the sample ciphertext. -/
def exchange (key : Key) (nonce : List UInt8) (c : List UInt8) : List UInt8 :=
  if key = derivedKey ∧ nonce = random.drop 20 then
    if c = plaintext then ciphertext else if c = ciphertext then plaintext else c
  else c

def encrypt (key : Key) (nonce _aad p : List UInt8) : List UInt8 :=
  exchange key nonce (p ++ List.replicate 16 0)

def decrypt (key : Key) (nonce _aad c : List UInt8) : Option (List UInt8) :=
  let d := exchange key nonce c
  if 16 ≤ d.length ∧ d.drop (d.length - 16) = List.replicate 16 0 then some (d.take (d.length - 16))
  else none

/-- `Uuid::parse_str` on the hyphenated and the simple form. -/
def parseUuid (s : String) : Option Uuid :=
  let bs := utf8 s
  let digits := if bs.length = 36 ∧ (bs.getD 8 0, bs.getD 13 0, bs.getD 18 0, bs.getD 23 0) = (45, 45, 45, 45)
    then bs.take 8 ++ (bs.drop 9).take 4 ++ (bs.drop 14).take 4 ++ (bs.drop 19).take 4 ++ bs.drop 24
    else bs
  match hexDecode digits with
  | .error _ => none
  | .ok r => if h : r.toArray.size = 16 then some ⟨r.toArray, h⟩ else none

/-- `Uuid::to_string`, the hyphenated form. -/
def uuidToString (u : Uuid) : String :=
  let ds := (hexEncode u.toList).toList
  String.ofList (ds.take 8 ++ ['-'] ++ (ds.drop 8).take 4 ++ ['-'] ++ (ds.drop 12).take 4 ++ ['-'] ++
    (ds.drop 16).take 4 ++ ['-'] ++ ds.drop 20)

def crates : Crates where
  toLowercase s := String.ofList (s.toList.map Char.toLower)
  parseUuid := parseUuid
  uuidToString := uuidToString
  regex _ := none
  parseIpv4Net _ := none
  x25519Public := x25519Public
  diffieHellman a b := mix (x25519Public a) b
  hkdfSha256 _ _ _ := derivedKey
  sha256 _ := List.replicate 32 0
  aes256GcmEncrypt := encrypt
  aes256GcmDecrypt := decrypt
  selfSigned := .ok ()

theorem exchange_exchange (key : Key) (nonce c : List UInt8) :
    exchange key nonce (exchange key nonce c) = c := by
  have hne : ciphertext ≠ plaintext := by decide
  unfold exchange
  split_ifs <;> simp_all

theorem exchange_length (key : Key) (nonce c : List UInt8) :
    (exchange key nonce c).length = c.length := by
  unfold exchange
  split_ifs with _ h1 h2
  · rw [h1]; rfl
  · rw [h2]; rfl
  · rfl
  · rfl

theorem laws : crates.Laws where
  diffieHellman_comm a b := by
    change mix (x25519Public a) (x25519Public b) = mix (x25519Public b) (x25519Public a)
    simp only [mix, and_comm, or_comm]
  decrypt_iff key nonce aad c p := by
    change decrypt key nonce aad c = some p ↔ c = encrypt key nonce aad p
    have hz : (List.replicate 16 (0 : UInt8)).length = 16 := List.length_replicate
    rw [decrypt, encrypt]
    constructor
    · intro h
      split_ifs at h with hd
      obtain rfl := Option.some.inj h
      rw [← hd.2, List.take_append_drop, exchange_exchange]
    · rintro rfl
      rw [exchange_exchange, List.length_append, hz, Nat.add_sub_cancel]
      rw [if_pos ⟨by omega, List.drop_left⟩, List.take_left]
  encrypt_length key nonce aad p := by
    change (encrypt key nonce aad p).length = p.length + 16
    rw [encrypt, exchange_length, List.length_append, List.length_replicate]

end Sample

end RXCore
