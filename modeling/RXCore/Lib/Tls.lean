import RXCore.Lib.Encoding

/-!
# TLS 1.3 ClientHello messages

The grammar of the message that opens a TLS 1.3 handshake, as values that carry what makes them well
formed, and their bytes.

* `vec`: a list of bytes behind its length;
* `ServerName`, `KeyShareEntry`, `Extension`: the lists that a server looks into, any other extension as
  it is;
* `ClientHello`, `ClientHello.encode`, `record`;
* `ClientHello.hostName`, `ClientHello.x25519Share`: the first of their kind.
-/

set_option autoImplicit false

namespace Tls

open Encoding

/-- `bs` behind its length in `k` bytes. -/
def vec (k : ℕ) (bs : List UInt8) : List UInt8 := beBytes k bs.length ++ bs

@[simp] theorem vec_length (k : ℕ) (bs : List UInt8) : (vec k bs).length = k + bs.length := by simp [vec]

/-- An entry of a server name list. -/
inductive ServerName where
  | hostName (name : String)
  | other (nameType : UInt8) (data : List UInt8) (h : nameType ≠ 0)

def ServerName.encode : ServerName → List UInt8
  | hostName name => 0 :: vec 2 (utf8 name)
  | other nameType data _ => nameType :: vec 2 data

/-- An entry of a key share list; a share for X25519 has 32 bytes. -/
structure KeyShareEntry where
  group : UInt16
  keyExchange : List UInt8
  x25519 : group = 0x001d → keyExchange.length = 32

def KeyShareEntry.encode (e : KeyShareEntry) : List UInt8 := beBytes 2 e.group.toNat ++ vec 2 e.keyExchange

inductive Extension where
  | serverName (names : List ServerName)
  | keyShare (shares : List KeyShareEntry)
  | other (type : UInt16) (data : List UInt8) (h : type ≠ 0 ∧ type ≠ 0x0033)

namespace Extension

def type : Extension → UInt16
  | serverName _ => 0
  | keyShare _ => 0x0033
  | other type _ _ => type

def data : Extension → List UInt8
  | serverName names => vec 2 (names.flatMap ServerName.encode)
  | keyShare shares => vec 2 (shares.flatMap KeyShareEntry.encode)
  | other _ data _ => data

def encode (e : Extension) : List UInt8 := beBytes 2 e.type.toNat ++ vec 2 e.data

/-- The first host name of a server name list. -/
def hostName : Extension → Option String
  | serverName names => names.findSome? fun
    | .hostName name => some name
    | .other .. => none
  | _ => none

/-- The first share for X25519 of a key share list. -/
def x25519Share : Extension → Option (List UInt8)
  | keyShare shares => shares.findSome? fun e => if e.group = 0x001d then some e.keyExchange else none
  | _ => none

theorem type_of_hostName {e : Extension} (h : e.hostName.isSome) : e.type = 0 := by
  cases e with
  | serverName names => rfl
  | keyShare shares => cases h
  | other type data hne => cases h

theorem type_of_x25519Share {e : Extension} (h : e.x25519Share.isSome) : e.type = 0x0033 := by
  cases e with
  | serverName names => cases h
  | keyShare shares => rfl
  | other type data hne => cases h

end Extension

/-- A ClientHello with its upper bounds; the lower ones of the grammar are not needed. -/
structure ClientHello where
  random : Vector UInt8 32
  legacySessionId : List UInt8
  legacySessionId_le : legacySessionId.length ≤ 32
  cipherSuites : List UInt16
  cipherSuites_lt : cipherSuites.length < 2 ^ 15
  legacyCompressionMethods : List UInt8
  legacyCompressionMethods_lt : legacyCompressionMethods.length < 2 ^ 8
  extensions : List Extension
  distinct : (extensions.map Extension.type).Nodup
  extensions_lt : (extensions.flatMap Extension.encode).length < 2 ^ 16

namespace ClientHello

/-- What follows the session id. -/
def afterSessionId (h : ClientHello) : List UInt8 :=
  vec 2 (h.cipherSuites.flatMap fun c => beBytes 2 c.toNat) ++ (vec 1 h.legacyCompressionMethods ++
    vec 2 (h.extensions.flatMap Extension.encode))

/-- The body of the message. -/
def body (h : ClientHello) : List UInt8 :=
  [3, 3] ++ h.random.toList ++ (vec 1 h.legacySessionId ++ h.afterSessionId)

/-- The handshake message. -/
def encode (h : ClientHello) : List UInt8 := 1 :: vec 3 h.body

def hostName (h : ClientHello) : Option String := h.extensions.findSome? Extension.hostName

def x25519Share (h : ClientHello) : Option (List UInt8) := h.extensions.findSome? Extension.x25519Share

theorem cipherSuites_length (h : ClientHello) :
    (h.cipherSuites.flatMap fun c => beBytes 2 c.toNat).length = 2 * h.cipherSuites.length := by
  simp [List.length_flatMap, Nat.mul_comm]

theorem body_length (h : ClientHello) : h.body.length = 40 + h.legacySessionId.length +
    2 * h.cipherSuites.length + h.legacyCompressionMethods.length +
      (h.extensions.flatMap Extension.encode).length := by
  simp only [body, afterSessionId, List.length_append, vec_length, cipherSuites_length, Vector.length_toList,
    List.length_cons, List.length_nil]
  omega

theorem body_lt (h : ClientHello) : h.body.length < 2 ^ 24 := by
  have h1 := h.legacySessionId_le
  have h2 := h.cipherSuites_lt
  have h3 := h.legacyCompressionMethods_lt
  have h4 := h.extensions_lt
  rw [body_length]
  omega

@[simp] theorem encode_length (h : ClientHello) : h.encode.length = 4 + h.body.length := by
  simp [encode]
  omega

end ClientHello

/-- A handshake message in a record of its own. -/
def record (version : Vector UInt8 2) (message : List UInt8) : List UInt8 :=
  22 :: version.toList ++ vec 2 message

end Tls
