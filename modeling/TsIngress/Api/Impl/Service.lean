import TsIngress.Api.Impl.Types

/-!
This module contains `api/service.c`.
-/

def ServicePort.answers (port : ServicePort) (name : Str) (proto : ServiceProto) : Bool :=
  port.spProtocol == proto && (port.spName == name || (atoi name != 0 && atoi name == port.spPort))

-- The name is converted before the table is looked at.
def serviceFindPort (service : Service) (name : Option Str) (proto : ServiceProto)
    : Result (Option ServicePort) := do
  let name ← deref name
  let ports ← deref service.svPorts
  return (hashValues ports).find? (·.answers name proto)
