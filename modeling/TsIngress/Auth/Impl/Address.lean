import TsIngress.Remap.Impl.Types

/-!
This module contains the address checks of `auth/auth.c`. An IPv4 address is kept as the integer that
the host reads from the four bytes of the wire, so its value depends on the byte order of the host.
-/

def bswap32 (x : UInt32) : UInt32 :=
  ((x &&& (0xFF : UInt32)) <<< (24 : UInt32))
    ||| ((x &&& (0xFF00 : UInt32)) <<< (8 : UInt32))
    ||| ((x >>> (8 : UInt32)) &&& (0xFF00 : UInt32))
    ||| (x >>> (24 : UInt32))

def htonl (endian : Endian) (x : UInt32) : UInt32 :=
  match endian with
  | .little => bswap32 x
  | .big => x

def load32 (endian : Endian) (bytes : List UInt8) (off : Nat) : UInt32 :=
  let b (i : Nat) : UInt32 := (bytes.getD (off + i) 0).toUInt32
  htonl endian ((b 0 <<< (24 : UInt32)) ||| (b 1 <<< (16 : UInt32)) ||| (b 2 <<< (8 : UInt32)) ||| b 3)

def ipv4InNetwork (endian : Endian) (ip net : UInt32) (pfxlen : Int) : Bool :=
  -- the shift is computed before the prefix length is tested
  let mask := ((~~~(0 : UInt64)) <<< UInt64.ofInt (32 - pfxlen)).toUInt32
  if pfxlen < 0 ∨ pfxlen > 32 then
    false
  else
    (htonl endian ip &&& mask) == (htonl endian net &&& mask)

def ipv6Mask (endian : Endian) (pfxlen : Nat) (i : Nat) : UInt32 :=
  if i = pfxlen / 32 ∧ pfxlen % 32 ≠ 0 then
    htonl endian ((~~~(0 : UInt32)) <<< UInt32.ofNat (32 - pfxlen % 32))
  else if pfxlen / 32 ≤ i then
    0
  else
    0xFFFFFFFF

def ipv6InNetwork (endian : Endian) (ip net : In6Addr) (pfxlen : Int) : Bool :=
  if pfxlen < 0 ∨ pfxlen > 128 then
    false
  else
    (List.range 4).all fun i =>
      (load32 endian ip.s6Addr (4 * i) &&& ipv6Mask endian pfxlen.toNat i)
        ==
      (load32 endian net.s6Addr (4 * i) &&& ipv6Mask endian pfxlen.toNat i)

def authCheckAddress (env : Env) (addr : SockAddr) (rp : RemapPath) : Bool :=
  match addr with
  | .inet ip =>
    rp.rpAuthAddrList.any fun rad =>
      match rad.raAddr with
      | .v4 net => ipv4InNetwork env.endian ip net rad.raPrefixLength
      | .v6 _ => false
  | .inet6 ip =>
    rp.rpAuthAddrList.any fun rad =>
      match rad.raAddr with
      | .v4 _ => false
      | .v6 net => ipv6InNetwork env.endian ip net rad.raPrefixLength
  | .other => false
