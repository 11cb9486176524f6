import TsIngress.Api.Impl.Types

/-!
This module contains what the sources call but do not contain: the resolver of address texts, the POSIX
regular expressions, the password hashes, OpenSSL and the JSON parser.
-/

inductive Endian where
  | little
  | big
  deriving DecidableEq, Repr

structure In6Addr where
  s6Addr : List UInt8
  length_s6Addr : s6Addr.length = 16
  deriving DecidableEq

structure Env where
  endian : Endian
  -- `inet_pton(AF_INET, ..)`, with the address as it is stored in memory
  inetPton4 : Str → Option UInt32
  -- `inet_pton(AF_INET6, ..)`
  inetPton6 : Str → Option In6Addr
  inetPton_disjoint : ∀ s, (inetPton6 s).isSome → inetPton4 s = none
  -- does `regcomp` accept the pattern?
  regcomp : Str → Bool
  -- `regexec` of a compiled pattern: the offsets of the match in the subject
  regexec : Str → Str → Option (Nat × Nat)
  regexec_bounds : ∀ pat s m, regexec pat s = some m → m.1 ≤ m.2 ∧ m.2 ≤ s.length
  cryptCheck : Str → Str → Bool
  -- does `secret_make_ssl_ctx` return a context?
  sslCtxOk : Secret → Bool
  jsonTokenerParse : Str → Option Json
  -- the text of a JSON value that is neither a string nor a number
  jsonText : Json → Str
  randMax : Nat

structure SslCtx where
  secret : Secret

def secretMakeSslCtx (env : Env) (secret : Secret) : Option SslCtx :=
  if env.sslCtxOk secret then some ⟨secret⟩ else none

def plainOctet (s : Str) : Option Nat :=
  if s ≠ [] ∧ s.all isdigit ∧ (s.head? = some 48 → s = [48]) ∧ digitsValue s ≤ 255 then
    some (digitsValue s)
  else
    none

def plainInetPton4 (s : Str) : Option UInt32 :=
  match (strsep (str ".") s).map plainOctet with
  | [some a, some b, some c, some d] => some (UInt32.ofNat (a + 0x100 * (b + 0x100 * (c + 0x100 * d))))
  | _ => none

-- An environment for concrete runs: it knows the addresses of IPv4, takes the patterns of paths literally and
-- passwords in clear text.
def plainEnv : Env where
  endian := .little
  inetPton4 := plainInetPton4
  inetPton6 := fun _ => none
  inetPton_disjoint := by simp
  regcomp := fun _ => true
  regexec := fun pat s => if pat.tail.isPrefixOf s then some (0, pat.tail.length) else none
  regexec_bounds := by
    intro pat s m h
    split at h
    . next hpre =>
      cases h
      exact ⟨Nat.zero_le _, (List.isPrefixOf_iff_prefix.mp hpre).length_le⟩
    . simp at h
  cryptCheck := fun pass crypted => crypted == str "{PLAIN}" ++ pass
  sslCtxOk := fun _ => true
  jsonTokenerParse := fun _ => none
  jsonText := fun _ => []
  randMax := 2147483647
