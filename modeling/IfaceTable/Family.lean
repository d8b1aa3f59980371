/-!
# Address families

The kernel numbers the families of addresses. Three of them have names here; any other is known
by its number, and a record without an address has a negative one.
-/

namespace IfaceTable

/-- The family of an address in a snapshot. -/
inductive Family where
  | ipv4
  | ipv6
  /-- A link-layer address. -/
  | packet
  | other (number : Int)
  /-- There is no address. -/
  | absent
  deriving DecidableEq, Repr

namespace Family

/-- The kernel's number of IPv4. -/
def ipv4Number : Int := 2

/-- The kernel's number of IPv6. -/
def ipv6Number : Int := 10

/-- The kernel's number of link-layer addresses. -/
def packetNumber : Int := 17

/-- The family with the given number. -/
def ofNumber (number : Int) : Family :=
  if number = ipv4Number then ipv4
  else if number = ipv6Number then ipv6
  else if number = packetNumber then packet
  else if number < 0 then absent
  else other number

/-- The name or number of a family; none if there is no address. -/
def label? : Family → Option String
  | ipv4 => some "ipv4"
  | ipv6 => some "ipv6"
  | packet => some "packet"
  | other number => some number.repr
  | absent => none

/-- The family with the given name, if it is one of those that have a name. -/
def ofName? (name : String) : Option Family := [ipv4, ipv6, packet].find? (·.label? = some name)

end Family

end IfaceTable
