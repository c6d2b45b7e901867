import Courier.Text.Percent
import Courier.Url.Domain
import Courier.Url.Ipv4
import Courier.Url.Ipv6
/-!
# Hosts

A host is an IPv6 address between brackets, an IPv4 address or a name. A name
whose last part is a number has to be an IPv4 address.
-/

namespace Courier.Url

inductive Host where
  | name (text : List Char)
  | ipv4 (address : Ipv4)
  | ipv6 (address : Ipv6)

namespace Host

def parse? (cs : List Char) : Option Host :=
  match cs with
  | '[' :: r => if r.getLast? = some ']' then (Ipv6.parse? r.dropLast).map .ipv6 else none
  | _ => do
    let s ← Bytes.text? (Percent.decode cs)
    let name ← Domain.toAscii? s.toList
    if name.isEmpty then none
    else if Ipv4.isMeant name then (Ipv4.parse? name).map .ipv4
    else some (.name name)

def text : Host → List Char
  | .name s => s
  | .ipv4 a => a.text
  | .ipv6 a => '[' :: a.text ++ [']']

end Host

end Courier.Url
