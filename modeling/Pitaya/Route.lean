import Pitaya.Foundations.ByteString

/-!
# Routes

`route/route.go`: a route names a server type, a service and a method, and the server type
may be left out.
-/

namespace Pitaya

structure Route where
  svType : Bytes
  service : Bytes
  method : Bytes
  deriving DecidableEq, Repr

/-- The errors of `Decode`. -/
inductive RouteError where
  /-- `ErrRouteFieldCantEmpty`, "route field can not be empty". -/
  | routeFieldCantEmpty
  /-- `ErrInvalidRoute`, "invalid route". -/
  | invalidRoute
  deriving DecidableEq, Repr

namespace Route

def short (r : Route) : Bytes := r.service ++ [46] ++ r.method

/-- `Decode`: two or three fields between dots, none of them blank. -/
def decode (route : Bytes) : Except RouteError Route :=
  let r := route.splitOn 46
  if r.any fun s => Bytes.trimSpace s = [] then .error .routeFieldCantEmpty
  else
    match r with
    | [svType, service, method] => .ok ⟨svType, service, method⟩
    | [service, method] => .ok ⟨[], service, method⟩
    | _ => .error .invalidRoute

end Route

end Pitaya
