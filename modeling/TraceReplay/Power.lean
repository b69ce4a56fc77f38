/-! Bounds of machine integers and scales of decimals are powers of naturals. A power is the
core library's everywhere in the project, also where a module imports a library with a power
of its own. -/

attribute [default_instance 20000] instPowNat
attribute [instance (high)] instPowNat
