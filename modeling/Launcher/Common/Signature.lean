import Launcher.Common.Basic

set_option autoImplicit false

/-! # Signatures

`common/Signature.cpp`: an ECDSA P-256 signature over a message, both key and signature in
base64. libsodium's decoder and what OpenSSL does with a key are parameters; a key is named by
the DER document it was read from. -/

namespace Launcher

structure Crypto where
  /-- `sodium_base642bin`, with white space to ignore: the decoded bytes and how far it read. -/
  base642bin : Bytes → Option (Bytes × Nat)
  /-- `d2i_PUBKEY` reads a key. -/
  d2iPubkey : Bytes → Bool
  isEc : Bytes → Bool
  keyBits : Bytes → Nat
  groupName : Bytes → Option Bytes
  digestVerifyInit : Bytes → Bool
  /-- `EVP_DigestVerify` with SHA-256, for a key, a signature and a message. -/
  digestVerify : Bytes → Bytes → Bytes → Bool

def MAX_ENCODED_LENGTH : Nat := 4096

def P256_KEY_BITS : Nat := 256

def isP256GroupName (name : Bytes) : Bool :=
  name == ascii "prime256v1" || name == ascii "P-256" || name == ascii "secp256r1"

section

variable (crypto : Crypto)

def decodeBase64 (encoded : Bytes) : Result Bytes :=
  if MAX_ENCODED_LENGTH < encoded.length then
    failure .InvalidInput (ascii "the value is too long")
  else
    match crypto.base642bin encoded with
    | none => failure .InvalidInput (ascii "the value is not valid base64")
    | some (decoded, stop) =>
        if stop ≠ encoded.length then
          failure .InvalidInput (ascii "the value has trailing characters that are not base64")
        else .ok decoded

def loadP256PublicKey (base64PublicKey : Bytes) : Result Bytes :=
  if base64PublicKey.isEmpty then failure .InvalidInput (ascii "the public key is empty")
  else
    match decodeBase64 crypto base64PublicKey with
    | .error e =>
        failure .InvalidInput (ascii "the public key is not base64: " ++ e.detail ++
          ascii (" (expected the body of a PEM 'BEGIN PUBLIC KEY' block, without its two " ++
            "delimiter lines)"))
    | .ok key =>
        if !crypto.d2iPubkey key then
          failure .InvalidInput
            (ascii "the public key is not a DER SubjectPublicKeyInfo document")
        else if !crypto.isEc key || crypto.keyBits key != P256_KEY_BITS then
          failure .InvalidInput
            (ascii ("the public key is not an elliptic-curve P-256 key; generate one with " ++
              "'openssl ecparam -name prime256v1 -genkey -noout -out release-signing.key'"))
        else if !(crypto.groupName key).any isP256GroupName then
          failure .InvalidInput (ascii "the public key is on a curve other than P-256")
        else .ok key

def validateP256PublicKey (base64PublicKey : Bytes) : VoidResult :=
  (loadP256PublicKey crypto base64PublicKey).map (fun _ => ())

def verifyP256Signature (base64PublicKey base64Signature message : Bytes) : VoidResult :=
  match loadP256PublicKey crypto base64PublicKey with
  | .error e => .error e
  | .ok key =>
      match decodeBase64 crypto base64Signature with
      | .error e =>
          failure .InvalidInput (ascii "the signature is not base64: " ++ e.detail)
      | .ok signature =>
          if signature.isEmpty then failure .InvalidInput (ascii "the signature is empty")
          else if !crypto.digestVerifyInit key then
            failure .Internal (ascii ("the signature could not be checked: OpenSSL refused to " ++
              "start a verification"))
          else if !crypto.digestVerify key signature message then
            failure .InvalidInput (ascii "the signature does not match this document and key")
          else .ok ()

end

end Launcher
