import ClassForge.Output.Item

/-!
# What the object runtime declares

Every header declares the functions of the object runtime, so that each module compiles on its own.
-/

namespace ClassForge.Output

/-- The type of the pairs' members that the init routines hand over. -/
def pairTypedef : String := "typedef void (*voidf)();"

/-- The functions of the object runtime. -/
def runtimeFunctions : List String :=
  ["extern int initCUDAObjects();",
   "extern void* myriad_new(const void* _class, ...);",
   "extern const void* myriad_class_of(const void* _self);",
   "extern size_t myriad_size_of(const void* self);",
   "extern int myriad_is_a(const void* _self, const struct MyriadClass* m_class);",
   "extern int myriad_is_of(const void* _self, const struct MyriadClass* m_class);",
   "extern void* myriad_device_handle_of(const void* _self);",
   "extern void myriad_cache_device_handle(const void* _self, void* device_self);"]

/-- The entry points of the root's methods, and the function that finds a superclass. -/
def rootEntryPoints : List String :=
  ["extern void* myriad_ctor(void* _self, va_list* app);",
   "extern int myriad_dtor(void* _self);",
   "extern void* myriad_cudafy(void* _self, int clobber);",
   "extern void myriad_decudafy(void* _self, void* cuda_self);",
   "extern const void* myriad_super(const void* _self);",
   "extern void* super_ctor(const void* _class, void* _self, va_list* app);",
   "extern int super_dtor(const void* _class, void* _self);",
   "extern void* super_cudafy(const void* _class, void* _self, int clobber);",
   "extern void super_decudafy(const void* _class, void* _self, void* cuda_self);"]

/-- Lines with a blank line behind each. -/
def spaced (ls : List String) : List Item :=
  ls.flatMap fun l => [.line l, .blank]

/-- What every header declares. -/
def runtimeItems : List Item :=
  spaced (runtimeFunctions ++ "// Delegators" :: rootEntryPoints)

end ClassForge.Output
