/-!
# Interface flags

The kernel reports the flags of an interface as the bits of a number. The low nineteen bits have
names. Numbers of any size are accepted; a negative one has the bits of its two's complement.

* `Flag.all`: the flags from the lowest bit up.
* `Flag.decode`: the flags that are set in a number.
-/

namespace IfaceTable

/-- A flag of a network interface, from the lowest bit up. -/
inductive Flag where
  | up | broadcast | debug | loopback | pointToPoint | noTrailers | running | noArp
  | promiscuous | allMulticast | master | slave | multicast | portSelect | autoMedia | dynamic
  | lowerUp | dormant | echo
  deriving DecidableEq, Repr

namespace Flag

/-- Every flag, from the lowest bit up. -/
def all : List Flag :=
  [up, broadcast, debug, loopback, pointToPoint, noTrailers, running, noArp, promiscuous,
    allMulticast, master, slave, multicast, portSelect, autoMedia, dynamic, lowerUp, dormant, echo]

/-- The position of the bit of a flag. -/
def bit : Flag → Nat
  | up => 0 | broadcast => 1 | debug => 2 | loopback => 3 | pointToPoint => 4 | noTrailers => 5
  | running => 6 | noArp => 7 | promiscuous => 8 | allMulticast => 9 | master => 10 | slave => 11
  | multicast => 12 | portSelect => 13 | autoMedia => 14 | dynamic => 15 | lowerUp => 16
  | dormant => 17 | echo => 18

def name : Flag → String
  | up => "UP" | broadcast => "BROADCAST" | debug => "DEBUG" | loopback => "LOOPBACK"
  | pointToPoint => "POINTOPOINT" | noTrailers => "NOTRAILERS" | running => "RUNNING"
  | noArp => "NOARP" | promiscuous => "PROMISC" | allMulticast => "ALLMULTI"
  | master => "MASTER" | slave => "SLAVE" | multicast => "MULTICAST" | portSelect => "PORTSEL"
  | autoMedia => "AUTOMEDIA" | dynamic => "DYNAMIC" | lowerUp => "LOWER_UP"
  | dormant => "DORMANT" | echo => "ECHO"

/-- The flag is set in `bits`. -/
def isSet (bits : Int) (flag : Flag) : Bool := bits >>> flag.bit % 2 = 1

/-- The flags that are set in `bits`, from the lowest up. -/
def decode (bits : Int) : List Flag := all.filter (isSet bits)

/-- The names of the flags that are set in `bits`. -/
def names (bits : Int) : List String := (decode bits).map name

end Flag

end IfaceTable
