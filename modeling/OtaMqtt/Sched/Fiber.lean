import OtaMqtt.Lib.Execution

namespace OtaMqtt.Sched

/-- `Fiber::State`. -/
inductive FiberState where
  | init
  | hold
  | exec
  | term
  | ready
  | except
  deriving DecidableEq

inductive Task (Cb Fib : Type) where
  | callback (cb : Cb)
  | fiber (fiber : Fib)

end OtaMqtt.Sched
