/-!
# Names of Python's builtins

The names that Python's own `builtins` module defines, and among them the ones that
cannot be given a new meaning here: those that the tree represents by nodes of its own,
and the bookkeeping names that are never expressions.
-/

namespace SlotTree
namespace Builtin

/-- The names of Python's `builtins` module. -/
def pythonNames : List String := [
  "ArithmeticError", "AssertionError", "AttributeError", "BaseException",
  "BaseExceptionGroup", "BlockingIOError", "BrokenPipeError", "BufferError",
  "BytesWarning", "ChildProcessError", "ConnectionAbortedError", "ConnectionError",
  "ConnectionRefusedError", "ConnectionResetError", "DeprecationWarning", "EOFError",
  "Ellipsis", "EncodingWarning", "EnvironmentError", "Exception", "ExceptionGroup",
  "False", "FileExistsError", "FileNotFoundError", "FloatingPointError", "FutureWarning",
  "GeneratorExit", "IOError", "ImportError", "ImportWarning", "IndentationError",
  "IndexError", "InterruptedError", "IsADirectoryError", "KeyError", "KeyboardInterrupt",
  "LookupError", "MemoryError", "ModuleNotFoundError", "NameError", "None",
  "NotADirectoryError", "NotImplemented", "NotImplementedError", "OSError",
  "OverflowError", "PendingDeprecationWarning", "PermissionError", "ProcessLookupError",
  "RecursionError", "ReferenceError", "ResourceWarning", "RuntimeError", "RuntimeWarning",
  "StopAsyncIteration", "StopIteration", "SyntaxError", "SyntaxWarning", "SystemError",
  "SystemExit", "TabError", "TimeoutError", "True", "TypeError", "UnboundLocalError",
  "UnicodeDecodeError", "UnicodeEncodeError", "UnicodeError", "UnicodeTranslateError",
  "UnicodeWarning", "UserWarning", "ValueError", "Warning", "ZeroDivisionError",
  "_", "__build_class__", "__debug__", "__doc__", "__import__", "__loader__", "__name__",
  "__package__", "__spec__", "abs", "aiter", "all", "anext", "any", "ascii", "bin", "bool",
  "breakpoint", "bytearray", "bytes", "callable", "chr", "classmethod", "compile",
  "complex", "copyright", "credits", "delattr", "dict", "dir", "divmod", "enumerate",
  "eval", "exec", "exit", "filter", "float", "format", "frozenset", "getattr", "globals",
  "hasattr", "hash", "help", "hex", "id", "input", "int", "isinstance", "issubclass",
  "iter", "len", "license", "list", "locals", "map", "max", "memoryview", "min", "next",
  "object", "oct", "open", "ord", "pow", "print", "property", "quit", "range", "repr",
  "reversed", "round", "set", "setattr", "slice", "sorted", "staticmethod", "str", "sum",
  "super", "tuple", "type", "vars", "zip"]

/-- The names that the tree represents by nodes of its own, and those that are never
expressions. -/
def reservedNames : List String := [
  "object", "bool", "True", "False", "None", "int", "float", "str", "list", "_",
  "__build_class__", "__debug__", "__doc__", "__import__", "__loader__", "__name__",
  "__package__", "__spec__"]

/-- Whether a name may be registered as a builtin expression. -/
def isRegistrable (name : String) : Bool :=
  !reservedNames.contains name && pythonNames.contains name

end Builtin
end SlotTree
