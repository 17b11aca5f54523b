import Mathlib.Init
set_option autoImplicit false

/-! Python exceptions as values. Only the families the program tests with
`isinstance` are told apart; `typeName` is what `type(exc).__name__` gives. -/

namespace SmartDns

inductive ExnKind where
  | nxdomain | nestedResolveRecursion | nestedResolve | formError | notQueryResponse
  | chainTooLong | answerForNXDOMAIN | valueError | indexError | keyError | runtimeError
  | timeoutError | tooBig | other
  deriving DecidableEq, Repr

structure PyException where
  kind : ExnKind
  typeName : String
  message : String := ""
  deriving DecidableEq, Repr

namespace PyException

def nxdomain : PyException := ⟨.nxdomain,"NXDOMAIN",""⟩
def nestedResolveRecursion (message : String) : PyException :=
  ⟨.nestedResolveRecursion,"NestedResolveRecursionError",message⟩
def formError (message : String) : PyException := ⟨.formError,"FormError",message⟩
def notQueryResponse : PyException := ⟨.notQueryResponse,"NotQueryResponse",""⟩
def chainTooLong : PyException := ⟨.chainTooLong,"ChainTooLong",""⟩
def answerForNXDOMAIN : PyException := ⟨.answerForNXDOMAIN,"AnswerForNXDOMAIN",""⟩
def valueError (message : String) : PyException := ⟨.valueError,"ValueError",message⟩
def indexError (message : String) : PyException := ⟨.indexError,"IndexError",message⟩
def keyError (message : String) : PyException := ⟨.keyError,"KeyError",message⟩
def runtimeError (message : String) : PyException := ⟨.runtimeError,"RuntimeError",message⟩
def timeoutError (message : String) : PyException := ⟨.timeoutError,"TimeoutError",message⟩
def fileNotFoundError (message : String) : PyException := ⟨.other,"FileNotFoundError",message⟩

end PyException

end SmartDns
