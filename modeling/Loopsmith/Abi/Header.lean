/-!
# The header for loop bodies

Every generated source can include this header, which is written next to it.  It
declares the argument pack for bodies and, on request, the entry points for host
programs.
-/

namespace Loopsmith
namespace Header

/-- The name under which the header is written. -/
def fileName : String := "doping_args.h"

def lines : List String :=
  ["#ifndef DOPING_ARGS_H",
   "#define DOPING_ARGS_H",
   "",
   "#include <stdint.h>",
   "",
   "#define DOPING_ABI_VERSION 1",
   "",
   "enum \x7b",
   "    DOPING_ARG_INT = 1,",
   "    DOPING_ARG_FLOAT = 2,",
   "    DOPING_ARG_POINTER = 3",
   "\x7d;",
   "",
   "typedef struct doping_value \x7b",
   "    uint32_t tag;",
   "    union \x7b",
   "        int64_t i;",
   "        double f;",
   "        void *p;",
   "    \x7d as;",
   "\x7d doping_value;",
   "",
   "typedef struct doping_args \x7b",
   "    uint32_t version;",
   "    uint32_t len;",
   "    doping_value *values;",
   "\x7d doping_args;",
   "",
   "#define DOPING_INT(args, n) ((args)->values[(n)].as.i)",
   "#define DOPING_FLOAT(args, n) ((args)->values[(n)].as.f)",
   "#define DOPING_PTR(type, args, n) ((type *)(args)->values[(n)].as.p)",
   "",
   "#ifdef __cplusplus",
   "#define DOPING_ENTRY extern \"C\" int function",
   "#else",
   "#define DOPING_ENTRY int function",
   "#endif",
   "",
   "#ifdef DOPING_HOST_API",
   "typedef struct doping_context doping_context;",
   "",
   "typedef struct doping_loop \x7b",
   "    const char *name;",
   "    const char *source;",
   "    const char *parameters;",
   "    const char *compiler_command;",
   "    int64_t iteration_start;",
   "    int64_t iteration_space;",
   "\x7d doping_loop;",
   "",
   "#ifdef __cplusplus",
   "extern \"C\" \x7b",
   "#endif",
   "doping_context *doping_context_new(void);",
   "void doping_context_free(doping_context *ctx);",
   "int doping_specialize(const doping_context *ctx, int64_t current_iteration,",
   "                      int continue_condition, const doping_loop *loop,",
   "                      doping_args *args);",
   "#ifdef __cplusplus",
   "\x7d",
   "#endif",
   "#endif",
   "",
   "#endif"]

def text : String :=
  String.join (lines.map (· ++ "\n"))

end Header
end Loopsmith
