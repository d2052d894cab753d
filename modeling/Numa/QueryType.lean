import Numa.Text

/-!
# Query types and response codes

`QueryType::from_num` maps the numbers it knows to their own variant and every
other number to `UNKNOWN`, so `TXT` and `UNKNOWN(16)` are different values
with the same number.
-/

namespace Numa

inductive QueryType
  | unknown (num : UInt16)
  | a
  | ns
  | cname
  | soa
  | ptr
  | mx
  | txt
  | aaaa
  | loc
  | srv
  | naptr
  | opt
  | ds
  | rrsig
  | nsec
  | dnskey
  | nsec3
  | svcb
  | https
  deriving DecidableEq

namespace QueryType

def toNum : QueryType → UInt16
  | unknown num => num
  | a => 1
  | ns => 2
  | cname => 5
  | soa => 6
  | ptr => 12
  | mx => 15
  | txt => 16
  | aaaa => 28
  | loc => 29
  | srv => 33
  | naptr => 35
  | opt => 41
  | ds => 43
  | rrsig => 46
  | nsec => 47
  | dnskey => 48
  | nsec3 => 50
  | svcb => 64
  | https => 65

def fromNum (num : UInt16) : QueryType :=
  if num = 1 then a
  else if num = 2 then ns
  else if num = 5 then cname
  else if num = 6 then soa
  else if num = 12 then ptr
  else if num = 15 then mx
  else if num = 16 then txt
  else if num = 28 then aaaa
  else if num = 29 then loc
  else if num = 33 then srv
  else if num = 35 then naptr
  else if num = 41 then opt
  else if num = 43 then ds
  else if num = 46 then rrsig
  else if num = 47 then nsec
  else if num = 48 then dnskey
  else if num = 50 then nsec3
  else if num = 64 then svcb
  else if num = 65 then https
  else unknown num

end QueryType

inductive ResultCode
  | noerror
  | formerr
  | servfail
  | nxdomain
  | notimp
  | refused
  deriving DecidableEq

end Numa
