import ClashSubParser.GoLibraries
import ClashSubParser.PolicyTypes

/-! How the options of a node are read. -/
namespace ClashSubParser

open Strings

def InboundProtocolCredential.effectivePreSharedKey (c : InboundProtocolCredential) : String :=
  if trimSpace c.preSharedKey ≠ "" then trimSpace c.preSharedKey else trimSpace c.presharedKey

section

variable (rt : Runtime)

def isTruthy (v : String) : Bool := ["true", "1", "yes", "on"].contains (toLower rt (trimSpace v))

def isInsecureKey (k : String) : Bool :=
  let key := toLower rt (trimSpace k)
  contains key "insecure" || contains key "skip_cert" || contains key "skip-cert" || contains key "skipcert"

def hasInsecureTransport (m : GoMap String) : Bool :=
  m.entries.any (fun e => isInsecureKey rt e.1 && isTruthy rt e.2)

def hasTUICDisableSNI (m : GoMap String) : Bool :=
  ["disable_sni", "disable-sni", "tuic_disable_sni"].any (fun k => isTruthy rt (m.value k))

end

def firstNonEmpty (values : List String) : String := (values.find? (· ≠ "")).getD ""

def extractHy2Ports (m : GoMap String) : String :=
  firstNonEmpty (["ports", "server_ports", "hy2_ports"].map (fun k => trimSpace (m.value k)))

end ClashSubParser
