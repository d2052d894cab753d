import Mathlib.Data.List.Infix
import Mathlib.Logic.Relation
import Numa.AddressText
import Numa.FileCommands
import Numa.Server
import Numa.Svcb
import Numa.WhiteSpace

/-!
# The resolver configuration of a Linux host

`install_linux`, `uninstall_linux` and `discover_linux` of `system_dns.rs`.
Either resolv.conf is replaced and saved in a backup, or systemd-resolved gets
a drop-in.  The programs `systemctl` and `resolvectl` are parameters, and what
the commands print is left out.
-/

namespace Numa

/-! ## Addresses of upstreams -/

namespace AddressParser

def readIpAddr (octets : Text) : Option (IpAddr × Text) :=
  ((readIpv4Addr octets).map fun read => (.v4 read.1, read.2)).or
    ((readIpv6Addr octets).map fun read => (.v6 read.1, read.2))

def readPort (octets : Text) : Option (UInt16 × Text) := do
  let rest ← readGivenChar colon octets
  let (port, rest) ← readNumber 10 rest.length 0xFFFF true rest
  some (port.toUInt16, rest)

def readSocketAddrV4 (octets : Text) : Option (SocketAddr × Text) := do
  let (addr, rest) ← readIpv4Addr octets
  let (port, rest) ← readPort rest
  some (.v4 addr port, rest)

/-- `read_scope_id`, of which only the length is of use. -/
def skipScopeId (octets : Text) : Text :=
  (do
    let rest ← readGivenChar 0x25 octets
    let (_, rest) ← readNumber 10 rest.length 0xFFFFFFFF true rest
    some rest : Option Text).getD octets

def readSocketAddrV6 (octets : Text) : Option (SocketAddr × Text) := do
  let rest ← readGivenChar 0x5B octets
  let (addr, rest) ← readIpv6Addr rest
  let rest ← readGivenChar 0x5D (skipScopeId rest)
  let (port, rest) ← readPort rest
  some (.v6 addr port, rest)

end AddressParser

open AddressParser

/-- `IpAddr::from_str`. -/
def parseIpAddr (octets : Text) : Option IpAddr :=
  parseWith readIpAddr octets

/-- `SocketAddr::from_str`. -/
def parseSocketAddr (octets : Text) : Option SocketAddr :=
  parseWith (fun octets => (readSocketAddrV4 octets).or (readSocketAddrV6 octets)) octets

def SocketAddr.new : IpAddr → UInt16 → SocketAddr
  | .v4 addr, port => .v4 addr port
  | .v6 addr, port => .v6 addr port

def parseUpstreamAddr (addr : Text) (defaultPort : UInt16) : Option SocketAddr :=
  (parseSocketAddr addr).or ((parseIpAddr addr).map (SocketAddr.new · defaultPort))

/-! ## What resolv.conf says -/

def isLoopbackOrStub (addr : Text) : Bool :=
  [text "127.0.0.1", text "127.0.0.53", text "0.0.0.0", text "::1", text "fec0:0:0:ffff::1",
    text "fec0:0:0:ffff::2", text "fec0:0:0:ffff::3", []].contains addr

def iterNameservers (content : Text) : List Text :=
  content.lines.filterMap fun (line : Text) =>
    match line.splitWhitespace with
    | keyword :: parts => if keyword = text "nameserver" then parts.head? else none
    | [] => none

/-- The first nameserver that is a real upstream. -/
def realUpstream (content : Text) : Option Text :=
  (iterNameservers content).find? fun ns => !isLoopbackOrStub ns

def searchDomains (content : Text) : List Text :=
  content.lines.flatMap fun (line : Text) =>
    let line := line.trim
    if (text "search").isPrefixOf line || (text "domain").isPrefixOf line then
      ((line.splitWhitespace.drop 1).map Text.trimEndDots).filter fun domain => !domain.isEmpty
    else []

def resolvConfHasRealUpstream (content : Text) : Bool :=
  (iterNameservers content).any fun ns => !isLoopbackOrStub ns

/-- Has numa written the content, or has it no real upstream? -/
def resolvConfIsNumaManaged (content : Text) : Bool :=
  decide (text "Generated by Numa" <:+: content) || !resolvConfHasRealUpstream content

/-- `read_to_string` fails when the octets are no text. -/
def isText (octets : Text) : Bool :=
  (String.fromUTF8? octets.toByteArray).isSome

/-! ## Install and uninstall -/

inductive SystemFile
  /-- `/etc/resolv.conf`. -/
  | resolvConf
  /-- `original-resolv.conf` in `.numa` at home. -/
  | backup
  /-- `/etc/systemd/resolved.conf.d/numa.conf`. -/
  | dropIn
  deriving DecidableEq

abbrev LinuxFiles := Files SystemFile Text

abbrev LinuxCommand := FileCommand SystemFile Text

def resolvedDir : Text := text "/etc/systemd/resolved.conf.d"

def dropInPath : Text := text "/etc/systemd/resolved.conf.d/numa.conf"

def dropInContent : Text :=
  text "[Resolve]\nDNS=127.0.0.1\nDomains=~. numa\nDNSStubListener=no\n"

/-- The resolv.conf of numa. -/
def numaResolvConf : Text :=
  text "# Generated by Numa — run 'sudo numa uninstall' to restore\nnameserver 127.0.0.1\nsearch numa\n"

/-- An error with what has failed in front. -/
def failedTo (action path message : Text) : Text :=
  text "failed to " ++ action ++ text " " ++ path ++ text ": " ++ message

open Interaction (ask done)
open FileCommand (orFail)

/-- `read_to_string` and `ok`. -/
def readToString : Except (FileError Text) Text → Option Text
  | .ok octets => if isText octets then some octets else none
  | .error _ => none

/-- The last part of `install_linux`. -/
def takeOver : LinuxCommand :=
  ask (.write .resolvConf numaResolvConf)
    (orFail (failedTo (text "write") (text "/etc/resolv.conf")) (done (.ok ())))

/-- The backup is written when there is no useful one and resolv.conf is the
host's own, as far as one can see. -/
def backUp (current existing : Option Text) : LinuxCommand :=
  if (existing.map resolvConfHasRealUpstream).getD false then takeOver
  else if (current.map resolvConfIsNumaManaged).getD false then takeOver
  else
    match current with
    | some content =>
      ask (.write .backup content)
        (orFail (failedTo (text "backup") (text "/etc/resolv.conf")) takeOver)
    | none => takeOver

/-- `install_linux`, where systemd-resolved is active or not, and the backup
goes to a directory. -/
def installLinux (resolvedActive : Bool) (directory : Text) : LinuxCommand :=
  if resolvedActive then
    ask (.createDirAll resolvedDir) (orFail (failedTo (text "create") resolvedDir)
      (ask (.write .dropIn dropInContent) (orFail (failedTo (text "write") dropInPath)
        (done (.ok ())))))
  else
    ask (.createDirAll directory) (orFail (failedTo (text "create") directory)
      (ask (.read .resolvConf) fun current =>
        ask (.read .backup) fun existing =>
          backUp (readToString current) (readToString existing)))

def uninstallLinux : LinuxCommand :=
  ask (.exists .dropIn) fun found =>
    if found then
      ask (.remove .dropIn) (orFail (failedTo (text "remove") dropInPath) (done (.ok ())))
    else
      ask (.copy .backup .resolvConf) fun
        | .ok () => ask (.remove .backup) fun _ => done (.ok ())
        | .error error =>
          if error.kind = .notFound then done (.ok ())
          else done (.error (failedTo (text "restore") (text "/etc/resolv.conf") error.message))

/-! ## Discovery -/

/-- A rule of the host, with the server it forwards to. -/
structure DiscoveredRule where
  suffix : Text
  upstream : SocketAddr
  deriving DecidableEq

def makeRule (domain nameserver : Text) : Option DiscoveredRule :=
  (parseUpstreamAddr nameserver 53).map (DiscoveredRule.mk domain)

/-- `CLOUD_VPC_RESOLVER`. -/
def cloudVpcResolver : Text := text "169.254.169.253"

structure SystemDnsInfo where
  defaultUpstream : Option Text
  forwardingRules : List DiscoveredRule
  deriving DecidableEq

/-- The real upstream in what `resolvectl status` prints, if it runs at all. -/
def resolvectlDnsServer (output : Option Text) : Option Text := do
  let printed ← output
  printed.lines.findSome? fun line =>
    if text "DNS Servers" <:+: line ∨ text "Current DNS Server" <:+: line then do
      let ip ← (line.splitOn colon).getLast?
      let ip := Text.trim ip
      if (parseIpAddr ip).isSome && !isLoopbackOrStub ip then some ip else none
    else none

/-- `parse_resolv_conf`. -/
def parseResolvConf (content : Option Text) : Option Text × List Text :=
  match content.filter isText with
  | some content => (realUpstream content, searchDomains content)
  | none => (none, [])

/-- `discover_linux`, with what `resolvectl` prints the two times it is run. -/
def discoverLinux (files : LinuxFiles) (first second : Option Text) : SystemDnsInfo :=
  let (upstream, searchDomains) := parseResolvConf (files .resolvConf)
  { defaultUpstream :=
      upstream.or ((resolvectlDnsServer first).or (parseResolvConf (files .backup)).1)
    forwardingRules :=
      let forwarder := (resolvectlDnsServer second).getD cloudVpcResolver
      searchDomains.filterMap fun domain => makeRule domain forwarder }

example : resolvConfIsNumaManaged (text "nameserver 127.0.0.53\nnameserver 9.9.9.9\n") = false ∧
    resolvConfIsNumaManaged numaResolvConf = true := by decide +kernel

end Numa
