/-!
The command's name and version, as it shows them.
-/
namespace BuildProbe

def commandName : String := "cfgprobe"

def version : String := "0.1.0"

end BuildProbe
