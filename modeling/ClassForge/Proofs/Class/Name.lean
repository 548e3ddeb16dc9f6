import ClassForge.Class.Name

/-!
# Generated names tell methods apart

The names derived from a method differ where the methods' names do, and never fall together with
each other.
-/

namespace ClassForge.Class.Name

/-- Methods of different names have different slots. -/
@[simp] theorem slot_inj {m n : String} : slot m = slot n ↔ m = n := by
  simp [slot]

@[simp] theorem slot_beq {m n : String} : (slot m == slot n) = (m == n) := by
  rw [Bool.eq_iff_iff]
  simp

/-- Methods of different names have different implementations. -/
@[simp] theorem implementation_inj {object m n : String} :
    implementation object m = implementation object n ↔ m = n := by
  simp [implementation]

/-- Methods that one class below the root introduces have different typedefs. -/
theorem typedef_inj {introducer m n : String} (h : introducer ≠ rootObject) :
    typedef introducer m = typedef introducer n ↔ m = n := by
  simp [typedef, h]

/-- A super-delegator's name is longer than the name of its method. -/
theorem superDelegator_ne_self (method : String) : superDelegator method ≠ method := by
  intro h
  have hlen := congrArg String.length h
  simp [superDelegator] at hlen

/-- The two entry points of a method have different names. -/
theorem delegator_ne_superDelegator (introducer method : String) :
    delegator introducer method ≠ superDelegator method := by
  unfold delegator
  split
  · simp [superDelegator, String.ext_iff]
  · exact (superDelegator_ne_self method).symm

/-- Classes of different names have different init routines. -/
theorem init_inj {a b : String} : init a = init b ↔ a = b := by
  simp [init]

/-- Classes below the root of different names have different class structs. -/
theorem metaclass_inj {a b : String} (ha : a ≠ rootObject) (hb : b ≠ rootObject) :
    metaclass a = metaclass b ↔ a = b := by
  simp [metaclass, ha, hb]

theorem classConstructor_inj {a b : String} (ha : a ≠ rootObject) (hb : b ≠ rootObject) :
    classConstructor a = classConstructor b ↔ a = b := by
  simp [classConstructor, metaclass_inj ha hb]

theorem classToDevice_inj {a b : String} (ha : a ≠ rootObject) (hb : b ≠ rootObject) :
    classToDevice a = classToDevice b ↔ a = b := by
  simp [classToDevice, metaclass_inj ha hb]

/-- The routine that copies the class object of a class below the root. -/
theorem classToDevice_of_ne {object : String} (h : object ≠ rootObject) :
    classToDevice object = object ++ "Class_cudafy" := by
  rw [classToDevice, metaclass, if_neg h, String.append_assoc]
  rfl

/-- Names that open with different characters are different. -/
theorem ne_of_head? {a b : String} (h : a.toList.head? ≠ b.toList.head?) : a ≠ b :=
  fun heq => h (congrArg (·.toList.head?) heq)

/-- Names that end in different characters are different. -/
theorem ne_of_getLast? {a b : String} (h : a.toList.getLast? ≠ b.toList.getLast?) : a ≠ b :=
  fun heq => h (congrArg (·.toList.getLast?) heq)

theorem metaclass_ne_rootObject (object : String) : metaclass object ≠ rootObject := by
  unfold metaclass
  split
  · decide
  · exact ne_of_getLast? (by simp [rootObject])

theorem typedef_ne_classConstructor {introducer : String} (h : introducer ≠ rootObject)
    (method object : String) : typedef introducer method ≠ classConstructor object :=
  ne_of_getLast? (by simp [typedef, classConstructor, h, List.getLast?_cons])

theorem typedef_ne_classToDevice {introducer : String} (h : introducer ≠ rootObject)
    (method object : String) : typedef introducer method ≠ classToDevice object :=
  ne_of_getLast? (by simp [typedef, classToDevice, h, List.getLast?_cons])

theorem classConstructor_ne_classToDevice (a b : String) : classConstructor a ≠ classToDevice b :=
  ne_of_getLast? (by simp [classConstructor, classToDevice])

end ClassForge.Class.Name
