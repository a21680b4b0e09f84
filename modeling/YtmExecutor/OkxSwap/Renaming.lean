/-
The adapters under other names of their calls.

The preflight runs an adapter with its calls marked by the keys they are signed with.
That is the adapter's own program with the calls renamed, so what is known of a
conversation of the adapter is known of the preflight's.
-/
import YtmExecutor.OkxSwap.Adapter

namespace YtmExecutor

open Python Decimal Interaction Prog

section Renamed

variable [Runtime] {ctx : Context} {C C' : Type} (api : OkxCall → Prog C Value PyError Value)
variable (f : C → C') {request : BrokerOrderRequest}

end Renamed

end YtmExecutor
