import TsIngress.Remap.Impl.Types
import TsIngress.Util.Impl.Base64

/-!
This module contains the password checks of `auth/auth.c`.
-/

def authCheckPassword (env : Env) (users : Hash Str) (usenam pass : Str) : Bool :=
  match hashGet users usenam with
  | none => false
  | some crypted => env.cryptCheck pass crypted

-- The result is 1 for a match, 0 for none and -1 for a header that cannot be parsed.
def authCheckBasic (env : Env) (hdr : Str) (rp : RemapPath) : Int :=
  if rp.rpAuthType ≠ .basic then
    0
  else
    match rp.rpUsers with
    | none => 0
    | some users =>
      if 32 ∉ hdr then
        -1
      else if hdr.length < 7 then
        -1
      else if hdr.take 6 ≠ str "Basic " then
        -1
      else
        let creds := (hdr.dropWhile (· ≠ 32)).dropWhile isspace
        if creds = [] then
          -1
        else if base64DecodeLen creds.length > 255 then
          -1
        else
          let (n, buf) := base64Decode creds
          if n < 3 then
            -1
          else
            -- the buffer is terminated behind the decoded bytes and then read as a string
            match strcut 58 (cstr buf) with
            | none => -1
            | some (user, pass) => if authCheckPassword env users user pass then 1 else 0

/--
The same with the buffer on the stack, store by store. The colon is overwritten, so that the user and the
password are two strings in the buffer.
-/
def authCheckBasicBuf (env : Env) (buf : List UInt8) (hdr : Str) (rp : RemapPath) : Result Int :=
  if rp.rpAuthType ≠ .basic then
    .ok 0
  else
    match rp.rpUsers with
    | none => .ok 0
    | some users =>
      if 32 ∉ hdr then
        .ok (-1)
      else if hdr.length < 7 then
        .ok (-1)
      else if hdr.take 6 ≠ str "Basic " then
        .ok (-1)
      else
        let creds := (hdr.dropWhile (· ≠ 32)).dropWhile isspace
        if creds = [] then
          .ok (-1)
        else if base64DecodeLen creds.length > buf.length - 1 then
          .ok (-1)
        else do
          let (n, buf) ← base64DecodeBuf buf 0 creds
          if n < 3 then
            return -1
          else
            let buf ← storeBuf buf n.toNat [0]
            let text ← strBuf buf
            if 58 ∉ text then
              return -1
            else
              let p := (text.takeWhile (· ≠ 58)).length
              let buf ← storeBuf buf p [0]
              let user ← strBuf buf
              let pass ← strBuf (buf.drop (p + 1))
              return if authCheckPassword env users user pass then 1 else 0
