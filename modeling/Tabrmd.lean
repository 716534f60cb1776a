import Tabrmd.CapHandles
import Tabrmd.Ownership
