import Randomness.Bytes

/-!
The eight bytes in front of every account, instruction and event, which name its format.
-/

namespace Randomness

abbrev Discriminator := Block 8

namespace Discriminator

namespace Account

def legacyConfig : Discriminator := ⟨[232, 41, 155, 150, 127, 28, 32, 160], rfl⟩
def coordinatorConfig : Discriminator := ⟨[172, 64, 171, 72, 168, 230, 93, 208], rfl⟩
def subscription : Discriminator := ⟨[64, 7, 26, 135, 102, 132, 98, 33], rfl⟩
def consumerRegistration : Discriminator := ⟨[214, 111, 64, 176, 202, 160, 126, 150], rfl⟩

/-- Requests of both generations: the reader has to know which layout to expect. -/
def randomnessRequest : Discriminator := ⟨[244, 231, 228, 160, 148, 28, 17, 184], rfl⟩

def compressedRequest : Discriminator := ⟨[149, 31, 244, 154, 189, 164, 84, 79], rfl⟩

end Account

namespace Instruction

def initializeConfig : Discriminator := ⟨[175, 175, 109, 31, 13, 152, 155, 237], rfl⟩
def updateConfig : Discriminator := ⟨[29, 158, 252, 191, 10, 83, 219, 99], rfl⟩
def createSubscription : Discriminator := ⟨[65, 71, 10, 60, 249, 82, 197, 12], rfl⟩
def fundSubscription : Discriminator := ⟨[224, 196, 55, 110, 8, 87, 188, 114], rfl⟩
def addConsumer : Discriminator := ⟨[236, 161, 142, 188, 40, 139, 108, 106], rfl⟩
def removeConsumer : Discriminator := ⟨[250, 124, 24, 230, 168, 7, 248, 36], rfl⟩
def cancelSubscription : Discriminator := ⟨[60, 139, 189, 242, 191, 208, 143, 18], rfl⟩
def requestRandomness : Discriminator := ⟨[213, 5, 173, 166, 37, 236, 31, 18], rfl⟩
def requestRandomnessWithCallback : Discriminator := ⟨[140, 11, 204, 125, 241, 255, 204, 233], rfl⟩
def requestRandomWords : Discriminator := ⟨[138, 218, 31, 64, 39, 225, 143, 208], rfl⟩
def requestRandomnessCompressed : Discriminator := ⟨[165, 191, 78, 118, 224, 244, 121, 83], rfl⟩
def fulfillRandomness : Discriminator := ⟨[235, 105, 140, 46, 40, 88, 117, 2], rfl⟩
def fulfillRandomWords : Discriminator := ⟨[241, 31, 92, 116, 42, 230, 221, 188], rfl⟩
def fulfillRandomnessCompressed : Discriminator := ⟨[69, 6, 198, 148, 3, 22, 28, 21], rfl⟩
def consumeRandomness : Discriminator := ⟨[190, 217, 49, 162, 99, 26, 73, 234], rfl⟩
def closeRequest : Discriminator := ⟨[170, 46, 165, 120, 223, 102, 115, 2], rfl⟩

end Instruction

namespace Event

def randomnessRequested : Discriminator := ⟨[10, 64, 183, 29, 104, 63, 90, 149], rfl⟩
def randomWordsRequested : Discriminator := ⟨[165, 151, 43, 146, 9, 131, 196, 201], rfl⟩
def compressedRandomnessRequested : Discriminator := ⟨[142, 194, 161, 1, 31, 36, 113, 37], rfl⟩
def randomnessFulfilled : Discriminator := ⟨[61, 67, 128, 142, 15, 77, 223, 252], rfl⟩
def randomWordsFulfilled : Discriminator := ⟨[29, 175, 249, 165, 74, 169, 85, 82], rfl⟩

end Event

end Discriminator

end Randomness
